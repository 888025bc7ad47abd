import Mathlib.Data.Finset.Max
import Mathlib.Logic.Function.Basic
import SecondChance.Proofs.Store.Numbers

/-!
Page files with a container for each purpose.

A store in memory may as well be kept as three containers: a map from numbers to live pages, the set
of the numbers that are free, and the number past the highest one ever handed out. A store on disk
needs the last two. A slot array says the same in one piece, and says it in such a way that the
containers cannot contradict each other. `parts` takes a slot array apart. Taking apart and calling
commute, for every call, so nobody can tell the two kinds of page files from each other by any
sequence of calls, and the containers that are the parts of a slot array are exactly those that
agree with each other.
-/

namespace SecondChance

/-- The numbers of a page file: how many have been handed out, and which of them are free. -/
@[ext]
structure Numbering where
  /-- One past the highest number ever handed out. -/
  highWater : Nat
  free : Finset PageNo

namespace Numbering

variable (x : Numbering) (n : PageNo)

/-- The lowest free number. -/
def lowest? : Option PageNo := if h : x.free.Nonempty then some (x.free.min' h) else none

def reuse : Numbering := { x with free := x.free.erase n }

def grow : Numbering := { x with highWater := x.highWater + 1 }

def giveBack : Numbering := { x with free := insert n x.free }

variable {x n}

theorem lowest?_eq_some_iff : x.lowest? = some n ↔ n ∈ x.free ∧ ∀ k ∈ x.free, n ≤ k := by
  rw [lowest?]
  split
  · next h =>
    rw [Option.some.injEq]
    exact Finset.min'_eq_iff ..
  · next h =>
    rw [Finset.not_nonempty_iff_eq_empty] at h
    simp [h]

theorem lowest?_eq_none_iff : x.lowest? = none ↔ x.free = ∅ := by
  rw [lowest?, dite_eq_right_iff, ← Finset.not_nonempty_iff_eq_empty]
  simp

/-- The numbering in which a number is free if its slot is not live. -/
def ofLive (live : Array Bool) : Numbering where
  highWater := live.size
  free := (Finset.range live.size).filter fun n => live[n]? = some false

section OfLive

variable {live : Array Bool}

@[simp]
theorem mem_free_ofLive : n ∈ (ofLive live).free ↔ live[n]? = some false := by
  simp only [ofLive, Finset.mem_filter, Finset.mem_range, and_iff_right_iff_imp]
  exact fun h => (Array.getElem?_eq_some_iff.1 h).1

theorem ofLive_set (hn : n < live.size) (b : Bool) : ofLive (live.setIfInBounds n b) =
    if b = true then (ofLive live).reuse n else (ofLive live).giveBack n := by
  have free (k : PageNo) : k ∈ (ofLive (live.setIfInBounds n b)).free ↔
      if k = n then b = false else k ∈ (ofLive live).free := by
    rw [mem_free_ofLive, mem_free_ofLive, Array.getElem?_setIfInBounds]
    by_cases hk : k = n
    · subst hk
      simp [hn]
    · simp [hk, Ne.symm hk]
  cases b with
  | true =>
    refine Numbering.ext Array.size_setIfInBounds (Finset.ext fun k => (free k).trans ?_)
    by_cases hk : k = n <;> simp [reuse, hk]
  | false =>
    refine Numbering.ext Array.size_setIfInBounds (Finset.ext fun k => (free k).trans ?_)
    by_cases hk : k = n <;> simp [giveBack, hk]

theorem ofLive_push : ofLive (live.push true) = (ofLive live).grow := by
  refine Numbering.ext (Array.size_push ..) (Finset.ext fun k => ?_)
  rw [grow, mem_free_ofLive, mem_free_ofLive, Array.getElem?_push]
  split
  · next hk => simp [hk]
  · rfl

/-- The lowest free number is that of the first slot that is not live. -/
theorem lowest?_ofLive : (ofLive live).lowest? = live.toList.findIdx? (· == false) := by
  have getElem {k : Nat} : live.toList[k]? = live[k]? := Array.getElem?_toList
  cases hn : live.toList.findIdx? (· == false) with
  | none =>
    rw [lowest?_eq_none_iff, Finset.eq_empty_iff_forall_notMem]
    intro k hk
    rw [mem_free_ofLive, ← getElem] at hk
    have taken := List.findIdx?_eq_none_iff.1 hn false (List.mem_of_getElem? hk)
    simp at taken
  | some n =>
    obtain ⟨hlt, hfree, least⟩ := List.findIdx?_eq_some_iff_getElem.1 hn
    rw [lowest?_eq_some_iff, mem_free_ofLive, ← getElem, List.getElem?_eq_getElem hlt]
    refine ⟨congrArg some (beq_iff_eq.1 hfree), fun k hk => Nat.le_of_not_lt fun hkn => ?_⟩
    rw [mem_free_ofLive, ← getElem, List.getElem?_eq_getElem (Nat.lt_trans hkn hlt)] at hk
    exact least k hkn (beq_iff_eq.2 (Option.some.inj hk))

end OfLive

end Numbering

/-! ### In memory -/

/-- A page file in memory as three containers. -/
@[ext]
structure MemoryParts where
  live : PageNo → Option Page
  numbers : Numbering
  limit : Option Nat
  stats : Stats

namespace MemoryParts

variable (name : String) (x : MemoryParts)

def new (limit : Option Nat) : MemoryParts := ⟨fun _ => none, ⟨0, ∅⟩, limit, {}⟩

def read (n : PageNo) (buffer : Buffer) : MemoryParts × Except StoreError Page :=
  match buffer.check, x.live n with
  | .error e, _ => (x, .error e)
  | .ok _, none => (x, .error (.pageNotFound name n))
  | .ok _, some p => ({ x with stats.reads := x.stats.reads + 1 }, .ok p)

def write (n : PageNo) (buffer : Buffer) : MemoryParts × Except StoreError Unit :=
  match buffer.check, x.live n with
  | .error e, _ => (x, .error e)
  | .ok _, none => (x, .error (.pageNotFound name n))
  | .ok p, some _ =>
    ({ x with live := Function.update x.live n (some p), stats.writes := x.stats.writes + 1 },
      .ok ())

/-- Takes the lowest number out of the free set, or raises the high-water mark unless it has reached
the limit; the number becomes live with a page of zeros. -/
def allocate : MemoryParts × Except StoreError PageNo :=
  let counted := { x.stats with allocations := x.stats.allocations + 1 }
  match x.numbers.lowest? with
  | some n =>
    (⟨Function.update x.live n (some .zero), x.numbers.reuse n, x.limit, counted⟩, .ok n)
  | none =>
    let n := x.numbers.highWater
    if x.limit.any (· ≤ n) then (x, .error .full)
    else (⟨Function.update x.live n (some .zero), x.numbers.grow, x.limit, counted⟩, .ok n)

/-- Moves the number of a live page from the map to the free set. -/
def delete (n : PageNo) : MemoryParts × Except StoreError Unit :=
  match x.live n with
  | none => (x, .error (.pageNotFound name n))
  | some _ =>
    ({ x with live := Function.update x.live n none
              numbers := x.numbers.giveBack n
              stats.deletions := x.stats.deletions + 1 }, .ok ())

def call : StoreCall → MemoryParts × StoreAnswer
  | .read n buffer => (x.read name n buffer).map id (.ofResult .content)
  | .write n buffer => (x.write name n buffer).map id (.ofResult fun _ => .done)
  | .allocate => x.allocate.map id (.ofResult .number)
  | .delete n => (x.delete name n).map id (.ofResult fun _ => .done)
  | .count => (x, .number x.numbers.highWater)
  | .sync => (x, .done)

def calls (xs : List StoreCall) : MemoryParts × List (StoreCall × StoreAnswer) :=
  dialogue (fun x c => x.call name c) x xs

/-- The numbers below the high-water mark are live or free and never both, and no other number is
either. -/
structure Agree : Prop where
  numbers (n : PageNo) : n < x.numbers.highWater ↔ (x.live n).isSome ∨ n ∈ x.numbers.free
  apart (n : PageNo) : (x.live n).isSome → n ∉ x.numbers.free

end MemoryParts

namespace MemoryStore

variable (m : MemoryStore) (name : String) {n : PageNo} {p : Page}

/-- The containers that a slot array stands for. -/
def parts : MemoryParts where
  live := m.page?
  numbers := .ofLive (m.slots.map Option.isSome)
  limit := m.limit
  stats := m.stats

theorem live_parts : m.parts.live = m.page? := rfl

theorem highWater_parts : m.parts.numbers.highWater = m.pageCount := Array.size_map

theorem mem_free_parts : n ∈ m.parts.numbers.free ↔ m.IsFree n := by
  simp [parts, IsFree]

theorem parts_new (limit : Option Nat) : (new limit).parts = .new limit := by
  refine MemoryParts.ext rfl (Numbering.ext ?_ ?_) rfl rfl <;>
    simp [parts, new, MemoryParts.new, Numbering.ofLive]

theorem lowest?_parts : m.parts.numbers.lowest? = m.firstFree? := by
  show (Numbering.ofLive _).lowest? = _
  rw [Numbering.lowest?_ofLive, Array.toList_map, List.findIdx?_map, firstFree?]
  congr 1
  funext o
  cases o <;> rfl

/-- Filling a slot takes its number from the free ones, and emptying it makes the number free. -/
theorem parts_set {m : MemoryStore} (hn : n < m.slots.size) (st : Stats) (o : Option Page) :
    ({ m with slots := m.slots.setIfInBounds n o, stats := st } : MemoryStore).parts =
      ⟨Function.update m.parts.live n o,
        if o.isSome = true then m.parts.numbers.reuse n else m.parts.numbers.giveBack n,
        m.limit, st⟩ := by
  have hsize : n < (m.slots.map Option.isSome).size := by rwa [Array.size_map]
  have numbers := Numbering.ofLive_set hsize o.isSome
  refine MemoryParts.ext (funext fun k => ?_) ?_ rfl rfl
  · show (_ : MemoryStore).page? k = Function.update m.page? n o k
    rw [Function.update_apply, page?_setSlot hn]
    exact if_congr eq_comm rfl rfl
  · rw [← Array.map_setIfInBounds] at numbers
    exact numbers

theorem parts_push (st : Stats) :
    ({ m with slots := m.slots.push (some p), stats := st } : MemoryStore).parts =
      ⟨Function.update m.parts.live m.pageCount (some p), m.parts.numbers.grow, m.limit, st⟩ := by
  refine MemoryParts.ext (funext fun k => ?_) ?_ rfl rfl
  · show (_ : MemoryStore).page? k = Function.update m.page? m.pageCount (some p) k
    rw [Function.update_apply, page?, page?, pageCount, Array.getElem?_push]
    split <;> rfl
  · have numbers : Numbering.ofLive ((m.slots.map Option.isSome).push true) =
        m.parts.numbers.grow := Numbering.ofLive_push
    simpa [parts] using numbers

/-! ### Taking apart and calling -/

theorem parts_read (n : PageNo) (buffer : Buffer) :
    m.parts.read name n buffer = ((m.read name n buffer).1.parts, (m.read name n buffer).2) := by
  simp only [MemoryParts.read, read, live_parts]
  cases buffer.check with
  | error e => rfl
  | ok p => cases m.page? n <;> rfl

theorem parts_write (n : PageNo) (buffer : Buffer) :
    m.parts.write name n buffer = ((m.write name n buffer).1.parts, (m.write name n buffer).2) := by
  simp only [MemoryParts.write, write, live_parts]
  cases buffer.check with
  | error e => rfl
  | ok p =>
    cases hq : m.page? n with
    | none => rfl
    | some q =>
      have taken : m.parts.numbers.reuse n = m.parts.numbers := by
        refine Numbering.ext rfl (Finset.erase_eq_of_notMem ?_)
        rw [mem_free_parts]
        exact not_isFree_of_page? hq
      simp only [parts_set (lt_size_of_page? hq), Option.isSome_some, if_true, taken]
      rfl

theorem parts_allocate : m.parts.allocate = (m.allocate.1.parts, m.allocate.2) := by
  simp only [MemoryParts.allocate, allocate, lowest?_parts, highWater_parts]
  cases hn : m.firstFree? with
  | some n =>
    have hlt : n < m.slots.size := (Array.getElem?_eq_some_iff.1 (firstFree?_eq_some_iff.1 hn).1).1
    rw [parts_set hlt]
    rfl
  | none =>
    by_cases full : m.limit.any (· ≤ m.pageCount) = true
    · simp only [if_pos full]
      exact if_pos full
    · simp only [if_neg full, parts_push]
      exact if_neg full

theorem parts_delete (n : PageNo) :
    m.parts.delete name n = ((m.delete name n).1.parts, (m.delete name n).2) := by
  simp only [MemoryParts.delete, delete, live_parts]
  cases hq : m.page? n with
  | none => rfl
  | some q =>
    rw [parts_set (lt_size_of_page? hq)]
    rfl

theorem parts_call (x : StoreCall) :
    m.parts.call name x = ((m.call name x).1.parts, (m.call name x).2) := by
  cases x with
  | read n buffer =>
    rw [MemoryParts.call, parts_read]
    rfl
  | write n buffer =>
    rw [MemoryParts.call, parts_write]
    rfl
  | allocate =>
    rw [MemoryParts.call, parts_allocate]
    rfl
  | delete n =>
    rw [MemoryParts.call, parts_delete]
    rfl
  | count =>
    rw [MemoryParts.call, highWater_parts]
    rfl
  | sync => rfl

/-- Three containers and a slot array answer all calls alike, and the containers are its parts ever
after. -/
theorem parts_calls (xs : List StoreCall) :
    m.parts.calls name xs = ((m.calls name xs).1.parts, (m.calls name xs).2) :=
  dialogue_map (fun m => m.parts_call name) m xs

/-- Containers are the parts of a slot array exactly if they agree with each other. -/
theorem exists_parts_iff (x : MemoryParts) : (∃ m : MemoryStore, m.parts = x) ↔ x.Agree := by
  constructor
  · rintro ⟨m, rfl⟩
    refine ⟨fun n => ?_, fun n live => ?_⟩
    · rw [highWater_parts, mem_free_parts, live_parts, Option.isSome_iff_exists]
      exact lt_pageCount_iff
    · rw [live_parts, Option.isSome_iff_exists] at live
      obtain ⟨p, hp⟩ := live
      rw [mem_free_parts]
      exact not_isFree_of_page? hp
  · rintro ⟨numbers, apart⟩
    let slots := Array.ofFn fun i : Fin x.numbers.highWater => x.live i
    have getElem (n : PageNo) :
        slots[n]? = if n < x.numbers.highWater then some (x.live n) else none := by
      simp [slots, Array.getElem?_ofFn]
    refine ⟨⟨slots, x.limit, x.stats⟩, MemoryParts.ext (funext fun n => ?_) ?_ rfl rfl⟩
    · show (slots[n]?).join = x.live n
      rw [getElem]
      split
      · rfl
      · next hn =>
        rw [numbers, not_or, Option.not_isSome_iff_eq_none] at hn
        exact hn.1.symm
    · refine Numbering.ext ?_ (Finset.ext fun n => ?_)
      · simp [parts, Numbering.ofLive, slots]
      · rw [mem_free_parts, IsFree]
        show slots[n]? = some none ↔ _
        rw [getElem]
        have hn := numbers n
        cases hp : x.live n with
        | none => simpa [hp] using hn
        | some p =>
          have taken : n ∉ x.numbers.free := apart n (by rw [hp]; rfl)
          simp [taken]

end MemoryStore

/-! ### On disk -/

/-- A page file on disk as its numbers, which are all that it keeps of its pages besides their
bytes. -/
@[ext]
structure DiskParts where
  place : String
  numbers : Numbering

namespace DiskParts

variable (name : String) (x : DiskParts) (bytes : Bytes)

/-- A page is live if its number is below the high-water mark and not free. -/
def checkLive (n : PageNo) : Except StoreError Unit :=
  if n < x.numbers.highWater ∧ n ∉ x.numbers.free then .ok ()
  else .error (.pageNotFound name n)

def read (n : PageNo) (buffer : Buffer) : Except StoreError Page :=
  match buffer.check, x.checkLive name n with
  | .error e, _ => .error e
  | .ok _, .error e => .error e
  | .ok _, .ok () =>
    match Page.slice? bytes (n * pageSize) with
    | some p => .ok p
    | none => .error (.io .endOfFile)

def write (n : PageNo) (buffer : Buffer) : Bytes × Except StoreError Unit :=
  match buffer.check, x.checkLive name n with
  | .error e, _ => (bytes, .error e)
  | .ok _, .error e => (bytes, .error e)
  | .ok p, .ok () => (DiskStore.store bytes n p, .ok ())

def allocate : DiskParts × Bytes × PageNo :=
  match x.numbers.lowest? with
  | some n => ({ x with numbers := x.numbers.reuse n }, bytes, n)
  | none =>
    let n := x.numbers.highWater
    ({ x with numbers := x.numbers.grow }, DiskStore.store bytes n .zero, n)

def delete (n : PageNo) : DiskParts × Bytes × Except StoreError Unit :=
  match x.checkLive name n with
  | .error e => (x, bytes, .error e)
  | .ok () => ({ x with numbers := x.numbers.giveBack n }, DiskStore.store bytes n .zero, .ok ())

def call : StoreCall → DiskParts × Bytes × StoreAnswer
  | .read n buffer => (x, bytes, .ofResult .content (x.read name bytes n buffer))
  | .write n buffer =>
    let (bytes, r) := x.write name bytes n buffer
    (x, bytes, .ofResult (fun _ => .done) r)
  | .allocate =>
    let (x, bytes, n) := x.allocate bytes
    (x, bytes, .number n)
  | .delete n =>
    let (x, bytes, r) := x.delete name bytes n
    (x, bytes, .ofResult (fun _ => .done) r)
  | .count => (x, bytes, .number x.numbers.highWater)
  | .sync => (x, bytes, .done)

def calls (xs : List StoreCall) : (DiskParts × Bytes) × List (StoreCall × StoreAnswer) :=
  dialogue (fun s c =>
    let (x, bytes, a) := s.1.call name s.2 c
    ((x, bytes), a)) (x, bytes) xs

end DiskParts

namespace DiskStore

variable (d : DiskStore) (name : String) (bytes : Bytes)

/-- The page count and the free set that a list of live slots stands for. -/
def parts : DiskParts := ⟨d.place, .ofLive d.live⟩

def calls (xs : List StoreCall) : (DiskStore × Bytes) × List (StoreCall × StoreAnswer) :=
  dialogue (fun s c =>
    let (d, bytes, a) := s.1.call name s.2 c
    ((d, bytes), a)) (d, bytes) xs

theorem parts_ofBytes {path place : String} (h : ofBytes path place bytes = .ok d) :
    d.parts = ⟨place, ⟨bytes.size / pageSize, ∅⟩⟩ := by
  rw [ofBytes] at h
  split at h
  · obtain rfl := Except.ok.inj h
    refine DiskParts.ext rfl (Numbering.ext Array.size_replicate (Finset.ext fun n => ?_))
    simp only [parts, Numbering.mem_free_ofLive, Array.getElem?_replicate]
    split <;> simp
  · cases h

theorem checkLive_parts (n : PageNo) : d.parts.checkLive name n = d.checkLive name n := by
  have live : n < d.live.size ∧ d.live[n]? ≠ some false ↔ d.isLive n = true := by
    rw [isLive]
    rcases Nat.lt_or_ge n d.live.size with hn | hn
    · simp [hn]
    · simp [hn]
  simp only [DiskParts.checkLive, checkLive, parts, Numbering.mem_free_ofLive]
  exact if_congr live rfl rfl

theorem parts_read (n : PageNo) (buffer : Buffer) :
    d.parts.read name bytes n buffer = d.read name bytes n buffer := by
  rw [DiskParts.read, checkLive_parts]
  rfl

theorem parts_write (n : PageNo) (buffer : Buffer) :
    d.parts.write name bytes n buffer = d.write name bytes n buffer := by
  rw [DiskParts.write, checkLive_parts]
  rfl

theorem parts_allocate : d.parts.allocate bytes =
    ((d.allocate bytes).1.parts, (d.allocate bytes).2) := by
  have lowest : d.parts.numbers.lowest? = d.firstFree? := Numbering.lowest?_ofLive
  simp only [DiskParts.allocate, allocate, lowest]
  cases hn : d.firstFree? with
  | some n =>
    obtain ⟨hlt, -, -⟩ := List.findIdx?_eq_some_iff_getElem.1 hn
    have numbers := Numbering.ofLive_set (by rwa [Array.length_toList] at hlt) true
    simp only [parts, numbers, if_true]
  | none => simp only [parts, Numbering.ofLive_push]; rfl

theorem parts_delete (n : PageNo) : d.parts.delete name bytes n =
    ((d.delete name bytes n).1.parts, (d.delete name bytes n).2) := by
  rw [DiskParts.delete, checkLive_parts, delete, checkLive]
  by_cases hl : d.isLive n = true
  · have numbers := Numbering.ofLive_set (lt_size_of_isLive hl) false
    simp only [if_pos hl, parts, numbers, Bool.false_eq_true, if_false]
  · simp only [if_neg hl]

theorem parts_call (x : StoreCall) : d.parts.call name bytes x =
    ((d.call name bytes x).1.parts, (d.call name bytes x).2) := by
  cases x with
  | read n buffer =>
    rw [DiskParts.call, parts_read]
    rfl
  | write n buffer =>
    rw [DiskParts.call, parts_write]
    rfl
  | allocate =>
    rw [DiskParts.call, parts_allocate]
    rfl
  | delete n =>
    rw [DiskParts.call, parts_delete]
    rfl
  | count | sync => rfl

/-- A page count with a free set and a list of live slots answer all calls alike, and write the same
to their file. -/
theorem parts_calls (xs : List StoreCall) : d.parts.calls name bytes xs =
    let r := d.calls name bytes xs
    ((r.1.1.parts, r.1.2), r.2) := by
  refine dialogue_map (g := fun s : DiskStore × Bytes => (s.1.parts, s.2)) (fun s x => ?_)
    (d, bytes) xs
  simp only [parts_call]

/-- A page count and a free set are those of a list of live slots exactly if all free numbers have
been handed out. -/
theorem exists_parts_iff (x : DiskParts) :
    (∃ d : DiskStore, d.parts = x) ↔ ∀ n ∈ x.numbers.free, n < x.numbers.highWater := by
  constructor
  · rintro ⟨d, rfl⟩ n hn
    exact (Array.getElem?_eq_some_iff.1 (Numbering.mem_free_ofLive.1 hn)).1
  · intro below
    let live := Array.ofFn fun i : Fin x.numbers.highWater => decide (i.1 ∉ x.numbers.free)
    refine ⟨⟨x.place, live⟩, DiskParts.ext rfl (Numbering.ext Array.size_ofFn ?_)⟩
    ext n
    rw [parts, Numbering.mem_free_ofLive]
    simp only [live, Array.getElem?_ofFn]
    constructor
    · intro h
      split at h
      · simpa using h
      · cases h
    · intro hn
      simp [below n hn, hn]

end DiskStore

end SecondChance
