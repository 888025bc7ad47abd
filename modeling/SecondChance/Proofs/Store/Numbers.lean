import SecondChance.Proofs.Store.Dialogues

/-!
The numbers that a file in memory hands out, and what it has under each of them.

All that a store in memory does is determined by what it was asked before and what it answered. A
number is in use from the moment when it is handed out until it is deleted, and its page contains
what was written to it last in this time, or zeros. A number that was deleted is free until it is
handed out again, and the lowest free number is always the next one. The store `Recalls` all this in
its slots; every call is answered from them, and leaves them such that they recall this call too.
-/

namespace SecondChance

abbrev Exchange := StoreCall × StoreAnswer

namespace Exchange

def handsOut (n : PageNo) : Exchange := (.allocate, .number n)

def deletes (n : PageNo) : Exchange := (.delete n, .done)

/-- What is written to a page, if anything is. -/
def written? (n : PageNo) : Exchange → Option Page
  | (.write k (.page p), .done) => if k = n then some p else none
  | _ => none

/-- The kind of call that has been served, if it is one that is counted. -/
def served? : Exchange → Option CallKind
  | (_, .refused _) => none
  | (.read .., _) => some .read
  | (.write .., _) => some .write
  | (.allocate, _) => some .alloc
  | (.delete _, _) => some .delete
  | (.count, _) | (.sync, _) => none

def page? : Exchange → Option PageNo
  | (.read n _, _) | (.write n _, _) | (.delete n, _) | (.allocate, .number n) => some n
  | _ => none

/-- What a page that had zeros contains after some exchanges. -/
def contentAfter (n : PageNo) (since : List Exchange) : Page :=
  (since.reverse.findSome? (written? n)).getD .zero

end Exchange

open Exchange

/-- A number has been handed out, and these are the exchanges `since`, in which it was neither
deleted nor handed out again. -/
structure HandedOut (n : PageNo) (log since : List Exchange) : Prop where
  split : ∃ before, log = before ++ handsOut n :: since
  latest : handsOut n ∉ since
  kept : deletes n ∉ since

/-- The number is in use, and its page has the given content. -/
def Holds (log : List Exchange) (n : PageNo) (p : Page) : Prop :=
  ∃ since, HandedOut n log since ∧ contentAfter n since = p

/-- The number has been deleted and not been handed out since. -/
def Returned (log : List Exchange) (n : PageNo) : Prop :=
  ∃ before since, log = before ++ deletes n :: since ∧ handsOut n ∉ since

def Stats.ofLog (log : List Exchange) : Stats where
  reads := log.countP (·.served? = some .read)
  writes := log.countP (·.served? = some .write)
  allocations := log.countP (·.served? = some .alloc)
  deletions := log.countP (·.served? = some .delete)

section Due

variable (name : String) (limit : Option Nat) (count : Nat) (has : PageNo → Page → Prop)
  (free : PageNo → Prop)

/-- The answer that is due to a call to a file with so many pages, of which it `has` some with a
certain content, while the numbers of others are `free`. -/
inductive Due : StoreCall → StoreAnswer → Prop
  | misread {n : PageNo} {size : Nat} {h : size ≠ pageSize} :
      Due (.read n (.misfit size h)) (.refused (.wrongBufferSize pageSize size))
  | miswritten {n : PageNo} {size : Nat} {h : size ≠ pageSize} :
      Due (.write n (.misfit size h)) (.refused (.wrongBufferSize pageSize size))
  | unreadable {n : PageNo} {b : Page} (h : ∀ p, ¬ has n p) :
      Due (.read n (.page b)) (.refused (.pageNotFound name n))
  | unwritable {n : PageNo} {p : Page} (h : ∀ q, ¬ has n q) :
      Due (.write n (.page p)) (.refused (.pageNotFound name n))
  | undeletable {n : PageNo} (h : ∀ q, ¬ has n q) :
      Due (.delete n) (.refused (.pageNotFound name n))
  | read {n : PageNo} {b p : Page} (h : has n p) : Due (.read n (.page b)) (.content p)
  | write {n : PageNo} {p q : Page} (h : has n q) : Due (.write n (.page p)) .done
  | delete {n : PageNo} {q : Page} (h : has n q) : Due (.delete n) .done
  | reuse {n : PageNo} (h : free n) (lowest : ∀ k < n, ¬ free k) : Due .allocate (.number n)
  | grow (h : ∀ k, ¬ free k) (room : ∀ most, limit = some most → count < most) :
      Due .allocate (.number count)
  | full {most : Nat} (h : ∀ k, ¬ free k) (hl : limit = some most) (reached : most ≤ count) :
      Due .allocate (.refused .full)
  | count : Due .count (.number count)
  | sync : Due .sync .done

end Due

/-! ### What an exchange adds to a log -/

section Snoc

variable {n : PageNo} {p : Page} {e : Exchange} {log since : List Exchange}

theorem snoc_eq_append_cons {α : Type} {xs before after : List α} {x y : α}
    (h : xs ++ [x] = before ++ y :: after) :
    (x = y ∧ after = []) ∨ ∃ after', after = after' ++ [x] ∧ xs = before ++ y :: after' := by
  rcases List.eq_nil_or_concat after with rfl | ⟨after', z, rfl⟩
  · obtain ⟨-, h⟩ := List.append_inj' h rfl
    exact .inl ⟨List.head_eq_of_cons_eq h, rfl⟩
  · have h : xs ++ [x] = (before ++ y :: after') ++ [z] := by simpa using h
    obtain ⟨hxs, hx⟩ := List.append_inj' h rfl
    obtain rfl := List.head_eq_of_cons_eq hx
    exact .inr ⟨after', by simp, hxs⟩

theorem handsOut_ne_deletes (n k : PageNo) : handsOut n ≠ deletes k := by
  simp [handsOut, deletes]

theorem handedOut_now (log : List Exchange) (n : PageNo) :
    HandedOut n (log ++ [handsOut n]) [] :=
  ⟨⟨log, rfl⟩, List.not_mem_nil, List.not_mem_nil⟩

/-- A number is in use after an exchange that neither hands it out nor deletes it exactly if it was
in use before, and then the exchange is the last one since it was handed out. -/
theorem handedOut_snoc (hout : e ≠ handsOut n) (hdel : e ≠ deletes n) :
    HandedOut n (log ++ [e]) since ↔ ∃ since', since = since' ++ [e] ∧ HandedOut n log since' := by
  constructor
  · rintro ⟨⟨before, split⟩, latest, kept⟩
    rcases snoc_eq_append_cons split with ⟨rfl, -⟩ | ⟨since', rfl, earlier⟩
    · exact absurd rfl hout
    · rw [List.mem_append, not_or] at latest kept
      exact ⟨since', rfl, ⟨before, earlier⟩, latest.1, kept.1⟩
  · rintro ⟨since', rfl, ⟨before, split⟩, latest, kept⟩
    refine ⟨⟨before, by simp [split]⟩, ?_, ?_⟩
    · simp [latest, Ne.symm hout]
    · simp [kept, Ne.symm hdel]

theorem eq_nil_of_handedOut_now (h : HandedOut n (log ++ [handsOut n]) since) : since = [] := by
  obtain ⟨⟨before, split⟩, latest, -⟩ := h
  rcases snoc_eq_append_cons split with ⟨-, hs⟩ | ⟨since', rfl, -⟩
  · exact hs
  · simp at latest

theorem not_handedOut_of_deleted : ¬ HandedOut n (log ++ [deletes n]) since := by
  rintro ⟨⟨before, split⟩, -, kept⟩
  rcases snoc_eq_append_cons split with ⟨same, -⟩ | ⟨since', rfl, -⟩
  · exact handsOut_ne_deletes n n same.symm
  · simp at kept

theorem contentAfter_snoc (n : PageNo) (since : List Exchange) (e : Exchange) :
    contentAfter n (since ++ [e]) = (e.written? n).getD (contentAfter n since) := by
  rw [contentAfter, List.reverse_append, List.reverse_singleton, List.singleton_append,
    List.findSome?_cons, contentAfter]
  cases e.written? n <;> rfl

theorem holds_handsOut : Holds (log ++ [handsOut n]) n p ↔ p = .zero := by
  constructor
  · rintro ⟨since, out, rfl⟩
    rw [eq_nil_of_handedOut_now out]
    rfl
  · rintro rfl
    exact ⟨[], handedOut_now log n, rfl⟩

theorem not_holds_deletes : ¬ Holds (log ++ [deletes n]) n p := by
  rintro ⟨since, out, -⟩
  exact not_handedOut_of_deleted out

theorem holds_snoc (hout : e ≠ handsOut n) (hdel : e ≠ deletes n) :
    Holds (log ++ [e]) n p ↔ ∃ q, Holds log n q ∧ (e.written? n).getD q = p := by
  simp only [Holds, handedOut_snoc hout hdel]
  constructor
  · rintro ⟨_, ⟨since, rfl, out⟩, rfl⟩
    exact ⟨_, ⟨since, out, rfl⟩, (contentAfter_snoc n since e).symm⟩
  · rintro ⟨_, ⟨since, out, rfl⟩, rfl⟩
    exact ⟨_, ⟨since, rfl, out⟩, contentAfter_snoc n since e⟩

theorem returned_deletes : Returned (log ++ [deletes n]) n :=
  ⟨log, [], rfl, List.not_mem_nil⟩

theorem returned_snoc (hdel : e ≠ deletes n) :
    Returned (log ++ [e]) n ↔ e ≠ handsOut n ∧ Returned log n := by
  constructor
  · rintro ⟨before, since, split, kept⟩
    rcases snoc_eq_append_cons split with ⟨rfl, -⟩ | ⟨since', rfl, earlier⟩
    · exact absurd rfl hdel
    · rw [List.mem_append, not_or, List.mem_singleton] at kept
      exact ⟨Ne.symm kept.2, before, since', earlier, kept.1⟩
  · rintro ⟨hout, before, since, rfl, kept⟩
    exact ⟨before, since ++ [e], by simp, by simp [kept, Ne.symm hout]⟩

end Snoc

/-! ### What a store does -/

namespace MemoryStore

variable {m : MemoryStore} {name : String} {limit : Option Nat} {log : List Exchange}
  {x : StoreCall} {a : StoreAnswer} {n : PageNo} {p : Page}

def after (m : MemoryStore) : Exchange → MemoryStore
  | (.read .., .content _) => { m with stats.reads := m.stats.reads + 1 }
  | (.write n (.page p), .done) =>
    { m with slots := m.slots.setIfInBounds n (some p), stats.writes := m.stats.writes + 1 }
  | (.allocate, .number n) =>
    { m with
      slots :=
        if n < m.slots.size then m.slots.setIfInBounds n (some .zero)
        else m.slots.push (some .zero)
      stats.allocations := m.stats.allocations + 1 }
  | (.delete n, .done) =>
    { m with slots := m.slots.setIfInBounds n none, stats.deletions := m.stats.deletions + 1 }
  | _ => m

def IsFree (m : MemoryStore) (n : PageNo) : Prop := m.slots[n]? = some none

/-- The answer that is due to a call by what the store has in its slots. -/
abbrev Answers (m : MemoryStore) (name : String) : StoreCall → StoreAnswer → Prop :=
  Due name m.limit m.pageCount (fun n p => m.page? n = some p) m.IsFree

theorem page?_eq_some_iff : m.page? n = some p ↔ m.slots[n]? = some (some p) :=
  Option.join_eq_some_iff

theorem lt_pageCount_iff : n < m.pageCount ↔ (∃ p, m.page? n = some p) ∨ m.IsFree n := by
  simp only [page?_eq_some_iff, IsFree, pageCount]
  constructor
  · intro hn
    cases hs : m.slots[n] with
    | none => exact .inr (by rw [Array.getElem?_eq_getElem hn, hs])
    | some p => exact .inl ⟨p, by rw [Array.getElem?_eq_getElem hn, hs]⟩
  · rintro (⟨p, hs⟩ | hs)
    · exact (Array.getElem?_eq_some_iff.1 hs).1
    · exact (Array.getElem?_eq_some_iff.1 hs).1

theorem not_isFree_of_page? (hp : m.page? n = some p) : ¬ m.IsFree n := by
  intro hn
  rw [page?, hn] at hp
  cases hp

theorem isFree_iff_getElem : m.IsFree n ↔
    ∃ h : n < m.slots.toList.length, m.slots.toList[n].isNone = true := by
  simp only [IsFree, Array.getElem?_eq_some_iff, Array.length_toList, Array.getElem_toList,
    Option.isNone_iff_eq_none]

theorem firstFree?_eq_some_iff :
    m.firstFree? = some n ↔ m.IsFree n ∧ ∀ k < n, ¬ m.IsFree k := by
  rw [firstFree?, List.findIdx?_eq_some_iff_getElem]
  constructor
  · rintro ⟨hlt, free, lowest⟩
    refine ⟨isFree_iff_getElem.2 ⟨hlt, free⟩, fun k hk hfree => lowest k hk ?_⟩
    exact (isFree_iff_getElem.1 hfree).2
  · rintro ⟨hfree, lowest⟩
    obtain ⟨hlt, free⟩ := isFree_iff_getElem.1 hfree
    exact ⟨hlt, free, fun k hk hk' => lowest k hk (isFree_iff_getElem.2 ⟨_, hk'⟩)⟩

theorem firstFree?_eq_none_iff : m.firstFree? = none ↔ ∀ k, ¬ m.IsFree k := by
  rw [firstFree?, List.findIdx?_eq_none_iff]
  constructor
  · intro h k hfree
    obtain ⟨hlt, free⟩ := isFree_iff_getElem.1 hfree
    rw [h _ (List.getElem_mem hlt)] at free
    cases free
  · intro h o ho
    obtain ⟨k, hlt, rfl⟩ := List.getElem_of_mem ho
    exact Bool.eq_false_iff.2 fun free => h k (isFree_iff_getElem.2 ⟨hlt, free⟩)

/-- Every call gets the answer that is due to it, and has the effect that goes with the answer. -/
theorem call_eq (m : MemoryStore) (name : String) (x : StoreCall) :
    ∃ a, m.call name x = (m.after (x, a), a) ∧ m.Answers name x a := by
  cases x with
  | read n buffer =>
    cases buffer with
    | misfit size h => exact ⟨_, rfl, .misread⟩
    | page b =>
      rw [call, read, Buffer.check_page]
      cases hp : m.page? n with
      | none => exact ⟨_, rfl, .unreadable (by simp [hp])⟩
      | some p => exact ⟨_, rfl, .read hp⟩
  | write n buffer =>
    cases buffer with
    | misfit size h => exact ⟨_, rfl, .miswritten⟩
    | page p =>
      rw [call, write, Buffer.check_page]
      cases hq : m.page? n with
      | none => exact ⟨_, rfl, .unwritable (by simp [hq])⟩
      | some q => exact ⟨_, rfl, .write hq⟩
  | allocate =>
    rw [call, allocate]
    cases hn : m.firstFree? with
    | some n =>
      obtain ⟨free, lowest⟩ := firstFree?_eq_some_iff.1 hn
      have hlt : n < m.slots.size := (Array.getElem?_eq_some_iff.1 free).1
      refine ⟨_, ?_, .reuse free lowest⟩
      simp only [after, if_pos hlt]
      rfl
    | none =>
      have taken := firstFree?_eq_none_iff.1 hn
      by_cases reached : m.limit.any (· ≤ m.pageCount) = true
      · obtain ⟨most, hl, hle⟩ := (Option.any_eq_true ..).1 reached
        simp only [if_pos reached]
        exact ⟨_, rfl, .full taken hl (of_decide_eq_true hle)⟩
      · have room : ∀ most, m.limit = some most → m.pageCount < most := by
          intro most hl
          rw [hl, Option.any_some, decide_eq_true_eq] at reached
          omega
        have last : ¬ m.pageCount < m.slots.size := Nat.lt_irrefl _
        simp only [if_neg reached]
        refine ⟨_, ?_, .grow taken room⟩
        simp only [after, if_neg last]
        rfl
  | delete n =>
    rw [call, delete]
    cases hq : m.page? n with
    | none => exact ⟨_, rfl, .undeletable (by simp [hq])⟩
    | some q => exact ⟨_, rfl, .delete hq⟩
  | count => exact ⟨_, rfl, .count⟩
  | sync => exact ⟨_, rfl, .sync⟩

theorem answers_call (m : MemoryStore) (name : String) (x : StoreCall) :
    m.Answers name x (m.call name x).2 := by
  obtain ⟨a, hcall, ha⟩ := m.call_eq name x
  rwa [hcall]

theorem call_fst (m : MemoryStore) (name : String) (x : StoreCall) :
    (m.call name x).1 = m.after (x, (m.call name x).2) := by
  obtain ⟨a, hcall, -⟩ := m.call_eq name x
  rw [hcall]

/-! ### What becomes of a slot -/

theorem limit_after (m : MemoryStore) (e : Exchange) : (m.after e).limit = m.limit := by
  unfold after
  split <;> rfl

theorem slot_handsOut (h : m.Answers name .allocate (.number n)) :
    (m.after (handsOut n)).slots[n]? = some (some .zero) := by
  simp only [after, handsOut]
  cases h with
  | reuse free lowest =>
    have hlt : n < m.slots.size := (Array.getElem?_eq_some_iff.1 free).1
    simp [hlt]
  | grow taken room => simp [pageCount]

theorem slot_deletes (h : m.Answers name (.delete n) .done) :
    (m.after (deletes n)).slots[n]? = some none := by
  cases h with
  | delete hq =>
    have hlt : n < m.slots.size := lt_size_of_page? hq
    simp [after, deletes, hlt]

/-- A slot changes only if its number is handed out, or its page deleted or written to. -/
theorem slot_after (h : m.Answers name x a) (hout : (x, a) ≠ handsOut n)
    (hdel : (x, a) ≠ deletes n) :
    (m.after (x, a)).slots[n]? =
      m.slots[n]?.map (Option.map fun q => (written? n (x, a)).getD q) := by
  cases h with
  | @write k p q hq =>
    have hlt : k < m.slots.size := lt_size_of_page? hq
    simp only [after, written?, Array.getElem?_setIfInBounds]
    by_cases hk : k = n
    · subst hk
      rw [page?_eq_some_iff.1 hq]
      simp [hlt]
    · simp [hk]
  | @reuse k free lowest =>
    have hk : k ≠ n := fun hk => hout (by rw [hk]; rfl)
    have hlt : k < m.slots.size := (Array.getElem?_eq_some_iff.1 free).1
    simp [after, written?, hlt, hk]
  | grow taken room =>
    have hk : m.slots.size ≠ n := fun hk => hout (by rw [← hk]; rfl)
    simp [after, written?, pageCount, Array.getElem?_push, hk.symm]
  | @delete k q hq =>
    have hk : k ≠ n := fun hk => hdel (by rw [hk]; rfl)
    simp [after, written?, hk]
  | _ => simp [after, written?]

theorem pageCount_after (h : m.Answers name x a) :
    (m.after (x, a)).pageCount = m.pageCount ∨
      (m.after (x, a)).pageCount = m.pageCount + 1 ∧
        ∀ most, m.limit = some most → m.pageCount < most := by
  cases h with
  | write | delete => exact .inl Array.size_setIfInBounds
  | reuse free lowest =>
    have hlt := (Array.getElem?_eq_some_iff.1 free).1
    simp [after, pageCount, hlt]
  | grow taken room =>
    refine .inr ⟨?_, room⟩
    simp [after, pageCount]
  | _ => exact .inl rfl

theorem stats_after (h : m.Answers name x a) (hs : m.stats = .ofLog log) :
    (m.after (x, a)).stats = .ofLog (log ++ [(x, a)]) := by
  cases h <;> simp [after, Stats.ofLog, served?, hs]

/-! ### What a store recalls -/

/-- The store has in its slots, and in its counts, what its log says. -/
structure Recalls (limit : Option Nat) (log : List Exchange) (m : MemoryStore) : Prop where
  limit_eq : m.limit = limit
  page?_iff (n : PageNo) (p : Page) : m.page? n = some p ↔ Holds log n p
  isFree_iff (n : PageNo) : m.IsFree n ↔ Returned log n
  le_limit {most : Nat} (hl : limit = some most) : m.pageCount ≤ most
  stats_eq : m.stats = .ofLog log

theorem recalls_new (limit : Option Nat) : (new limit).Recalls limit [] where
  limit_eq := rfl
  page?_iff n p := by
    constructor
    · intro h
      simp [new, page?] at h
    · rintro ⟨_, ⟨⟨before, split⟩, -, -⟩, -⟩
      simp at split
  isFree_iff n := by
    constructor
    · intro h
      simp [new, IsFree] at h
    · rintro ⟨before, _, split, -⟩
      simp at split
  le_limit _ := Nat.zero_le _
  stats_eq := rfl

namespace Recalls

variable (h : m.Recalls limit log)
include h

/-- An answer is due to a call by what the store has in its slots exactly if it is due by what the
log says. -/
theorem answers_iff :
    m.Answers name x a ↔ Due name limit m.pageCount (Holds log) (Returned log) x a := by
  have has : (fun n p => m.page? n = some p) = Holds log := by
    funext n p
    exact propext (h.page?_iff n p)
  have free : m.IsFree = Returned log := by
    funext n
    exact propext (h.isFree_iff n)
  rw [Answers, has, free, h.limit_eq]

theorem lt_pageCount (n : PageNo) :
    n < m.pageCount ↔ (∃ p, Holds log n p) ∨ Returned log n := by
  rw [lt_pageCount_iff, h.isFree_iff]
  simp only [h.page?_iff]

theorem not_returned (hp : Holds log n p) : ¬ Returned log n := by
  rw [← h.isFree_iff]
  exact not_isFree_of_page? ((h.page?_iff n p).2 hp)

section Step

variable (ha : m.Answers name x a)
include ha

theorem page?_after (n : PageNo) (p : Page) :
    (m.after (x, a)).page? n = some p ↔ Holds (log ++ [(x, a)]) n p := by
  rw [page?_eq_some_iff]
  by_cases hout : (x, a) = handsOut n
  · obtain ⟨rfl, rfl⟩ := Prod.mk.inj hout
    have slot := slot_handsOut ha
    rw [hout, slot, holds_handsOut]
    simp [eq_comm]
  · by_cases hdel : (x, a) = deletes n
    · obtain ⟨rfl, rfl⟩ := Prod.mk.inj hdel
      have slot := slot_deletes ha
      rw [hdel, slot]
      simp [not_holds_deletes]
    · rw [slot_after ha hout hdel, holds_snoc hout hdel]
      simp only [← h.page?_iff, page?_eq_some_iff, Option.map_eq_some_iff]
      constructor
      · rintro ⟨_, hs, q, rfl, hq⟩
        exact ⟨q, hs, hq⟩
      · rintro ⟨q, hs, hq⟩
        exact ⟨_, hs, q, rfl, hq⟩

theorem isFree_after (n : PageNo) :
    (m.after (x, a)).IsFree n ↔ Returned (log ++ [(x, a)]) n := by
  by_cases hdel : (x, a) = deletes n
  · obtain ⟨rfl, rfl⟩ := Prod.mk.inj hdel
    have slot := slot_deletes ha
    rw [hdel, IsFree, slot]
    simp [returned_deletes]
  · rw [returned_snoc hdel, ← h.isFree_iff, IsFree, IsFree]
    by_cases hout : (x, a) = handsOut n
    · obtain ⟨rfl, rfl⟩ := Prod.mk.inj hout
      have slot := slot_handsOut ha
      rw [hout, slot]
      simp
    · rw [slot_after ha hout hdel]
      simp [hout]

theorem step : (m.after (x, a)).Recalls limit (log ++ [(x, a)]) where
  limit_eq := (m.limit_after _).trans h.limit_eq
  page?_iff := h.page?_after ha
  isFree_iff := h.isFree_after ha
  le_limit {most} hl := by
    have old : m.pageCount ≤ most := h.le_limit hl
    rcases pageCount_after ha with same | ⟨grown, room⟩
    · rwa [same]
    · have : m.pageCount < most := room most (h.limit_eq.trans hl)
      omega
  stats_eq := stats_after ha h.stats_eq

end Step

theorem call (name : String) (x : StoreCall) :
    (m.call name x).1.Recalls limit (log ++ [(x, (m.call name x).2)]) := by
  rw [call_fst]
  exact h.step (m.answers_call name x)

theorem calls (name : String) (xs : List StoreCall) :
    (m.calls name xs).1.Recalls limit (log ++ (m.calls name xs).2) := by
  induction xs generalizing m log with
  | nil => simpa [MemoryStore.calls, dialogue] using h
  | cons x xs ih =>
    have rest := ih (h.call name x)
    rw [List.append_assoc] at rest
    exact rest

end Recalls

theorem slot_after_of_ne (h : m.Answers name x a) (hn : Exchange.page? (x, a) ≠ some n) :
    (m.after (x, a)).slots[n]? = m.slots[n]? := by
  have hout : (x, a) ≠ handsOut n := fun he => hn (by rw [he]; rfl)
  have hdel : (x, a) ≠ deletes n := fun he => hn (by rw [he]; rfl)
  have hw : written? n (x, a) = none := by
    cases h with
    | write => exact if_neg fun hk => hn (congrArg some hk)
    | _ => rfl
  rw [slot_after h hout hdel, hw]
  simp

/-- A store is true to a log if it recalls the log and does with every call what is due by the
log. -/
structure TrueTo (name : String) (limit : Option Nat) (log : List Exchange) (m : MemoryStore) : Prop
    extends Recalls limit log m where
  apart {n : PageNo} {p : Page} (hp : Holds log n p) : ¬ Returned log n
  numbers (n : PageNo) : n < m.pageCount ↔ (∃ p, Holds log n p) ∨ Returned log n
  answer (x : StoreCall) :
    Due name limit m.pageCount (Holds log) (Returned log) x (m.call name x).2
  /-- No number is handed out while it is in use. -/
  fresh {n : PageNo} (hn : (m.call name .allocate).2 = .number n) (p : Page) : ¬ Holds log n p
  grows (x : StoreCall) : m.pageCount ≤ (m.call name x).1.pageCount
  elsewhere {x : StoreCall} {n : PageNo} (hn : Exchange.page? (x, (m.call name x).2) ≠ some n) :
    (m.call name x).1.slots[n]? = m.slots[n]?
  refused {x : StoreCall} {e : StoreError} (he : (m.call name x).2 = .refused e) :
    (m.call name x).1 = m

theorem Recalls.trueTo (h : m.Recalls limit log) (name : String) : m.TrueTo name limit log where
  toRecalls := h
  apart := h.not_returned
  numbers := h.lt_pageCount
  answer x := h.answers_iff.1 (m.answers_call name x)
  fresh {n} hn p hp := by
    have due := h.answers_iff.1 (m.answers_call name .allocate)
    rw [hn] at due
    cases due with
    | reuse returned => exact h.not_returned hp returned
    | grow => exact Nat.lt_irrefl _ ((h.lt_pageCount _).2 (.inl ⟨p, hp⟩))
  grows x := by
    rw [call_fst]
    rcases pageCount_after (m.answers_call name x) with same | ⟨grown, -⟩ <;> omega
  elsewhere {x n} hn := by
    rw [call_fst]
    exact slot_after_of_ne (m.answers_call name x) hn
  refused := call_refused

/-- A file in memory hands out the lowest number that was deleted, or else the next one that its
limit allows, and has under every number what was written to it last since it was handed out. This
is so after all calls, whatever was asked and whatever has been refused. -/
theorem calls_trueTo_log (name : String) (limit : Option Nat) (xs : List StoreCall) :
    ((new limit).calls name xs).1.TrueTo name limit ((new limit).calls name xs).2 :=
  ((recalls_new limit).calls name xs).trueTo name

/-- A file with room for one page hands out the number of the page again once it is deleted. -/
example : ((new (some 1)).calls "a" [.allocate, .allocate, .delete 0, .allocate]).2.map Prod.snd =
    [.number 0, .refused .full, .done, .number 0] := rfl

end MemoryStore

end SecondChance
