import SecondChance.Proofs.System.Durability
import SecondChance.Proofs.System.Undisturbed

/-!
What a flush of everything does that nobody disturbs.

It goes through the frames in their order, writes every dirty page, pinned or not, and leaves all
pages where they are. At the first page that cannot be written it stops, and leaves the frames from
there on as they were. If there is none, the files written to are synced, in the order in which they
were first written to. At every place where the flush can stop it is said what has been written by
then, and what the ledger has become.
-/

namespace SecondChance

namespace Ledger

variable {l l' : Ledger} {i : FrameNo} {o : Occupant} {p : Occupant → Bool} {vs : List FrameNo}

/-! ### Frames of some kind, in their order -/

/-- The frames below `i` with pages of some kind, in their order. -/
def framesBelow (l : Ledger) (p : Occupant → Bool) (i : FrameNo) : List FrameNo :=
  (List.range i).filter fun j => (l.occupant? j).any p

theorem mem_framesBelow {j : FrameNo} :
    j ∈ l.framesBelow p i ↔ j < i ∧ ∃ o, l.occupant? j = some o ∧ p o = true := by
  rw [framesBelow, List.mem_filter, List.mem_range, Option.any_eq_true]

theorem not_mem_framesBelow (l : Ledger) (p : Occupant → Bool) (i : FrameNo) :
    i ∉ l.framesBelow p i :=
  fun hi => Nat.lt_irrefl i (mem_framesBelow.1 hi).1

theorem framesBelow_succ_of_some (ho : l.occupant? i = some o) (hp : p o = true) :
    l.framesBelow p (i + 1) = l.framesBelow p i ++ [i] := by
  have this : (l.occupant? i).any p = true := by rw [ho, Option.any_some, hp]
  rw [framesBelow, List.range_succ, List.filter_append, List.filter_singleton, this]
  rfl

theorem framesBelow_succ_of_none (h : ∀ o, l.occupant? i = some o → p o = false) :
    l.framesBelow p (i + 1) = l.framesBelow p i := by
  have this : (l.occupant? i).any p = false := by
    cases ho : l.occupant? i with
    | none => rfl
    | some o => rw [Option.any_some, h o ho]
  rw [framesBelow, List.range_succ, List.filter_append, List.filter_singleton, this]
  exact List.append_nil _

/-! ### Pages made clean -/

/-- `l'` is `l` with the pages of some frames clean. -/
structure Cleans (l : Ledger) (vs : List FrameNo) (l' : Ledger) : Prop where
  size : l'.size = l.size
  hand : l'.hand = l.hand
  table : l'.table = l.table
  generation (j : FrameNo) : l'.generation j = l.generation j
  occupant (j : FrameNo) :
    l'.occupant? j = if j ∈ vs then (l.occupant? j).map (·.cleaned) else l.occupant? j

theorem Cleans.refl (l : Ledger) : l.Cleans [] l := ⟨rfl, rfl, rfl, fun _ => rfl, fun _ => rfl⟩

theorem Cleans.occupant_of_not_mem (h : l.Cleans vs l') (hi : i ∉ vs) :
    l'.occupant? i = l.occupant? i :=
  (h.occupant i).trans (if_neg hi)

theorem Cleans.snoc (h : l.Cleans vs l') (hi : i ∉ vs) (ho : l'.occupant? i = some o) :
    l.Cleans (vs ++ [i]) (l'.setOccupant i o.cleaned) where
  size := (size_setOccupant ..).trans h.size
  hand := h.hand
  table := h.table
  generation j := (generation_setOccupant ..).trans (h.generation j)
  occupant j := by
    have same := (h.occupant_of_not_mem hi).symm.trans ho
    rw [occupant?_setOccupant (lt_size_of_occupant? ho), h.occupant]
    by_cases hj : i = j
    · subst hj
      simp [same]
    · simp [hj, Ne.symm hj]

end Ledger

namespace System

variable {s₀ s : System} {t : TaskId} {task : Task} {fault : Option Fault} {log : List Made}

def writes (s : System) (vs : List FrameNo) : List Made :=
  vs.filterMap fun i => (s.pool.ledger.occupant? i).map fun o => .write o (s.pool.buffer i) .done

theorem writes_snoc (vs : List FrameNo) {i : FrameNo} {o : Occupant}
    (ho : s.pool.ledger.occupant? i = some o) :
    s.writes (vs ++ [i]) = s.writes vs ++ [.write o (s.pool.buffer i) .done] := by
  rw [writes, List.filterMap_append, List.filterMap_cons, ho]
  rfl

theorem mem_writes {vs : List FrameNo} {x : Made} (hx : x ∈ s.writes vs) :
    ∃ i o, s.pool.ledger.occupant? i = some o ∧ x = .write o (s.pool.buffer i) .done := by
  obtain ⟨i, -, hi⟩ := List.mem_filterMap.1 hx
  obtain ⟨o, ho, rfl⟩ := Option.map_eq_some_iff.1 hi
  exact ⟨i, o, ho, rfl⟩

/-- The files of some calls, each of them once and in the order in which they came first. -/
def filesOf (log : List Made) : List FileNo := (log.map (·.file)).eraseDups

theorem mem_filesOf {f : FileNo} : f ∈ filesOf log ↔ ∃ x ∈ log, x.file = f := by
  rw [filesOf, List.mem_eraseDups, List.mem_map]

theorem filesOf_snoc (log : List Made) (x : Made) :
    filesOf (log ++ [x]) = if x.file ∈ filesOf log then filesOf log else filesOf log ++ [x.file] := by
  have split : filesOf (log ++ [x]) =
      filesOf log ++ ([x.file].removeAll (log.map (·.file))).eraseDups := by
    rw [filesOf, List.map_append, List.eraseDups_append]
    rfl
  rw [split, List.cons_removeAll]
  by_cases hx : x.file ∈ filesOf log
  · have old : (log.map (·.file)).contains x.file = true := by
      simpa [mem_filesOf] using hx
    rw [if_pos hx, if_neg (by simp only [old, Bool.true_eq_false, not_false_eq_true])]
    exact List.append_nil _
  · have new : (log.map (·.file)).contains x.file = false := by
      simpa [mem_filesOf] using hx
    rw [if_neg hx, if_pos new]
    rfl

theorem alsoWritten_filesOf {labels : Labels} {x : Made}
    (distinct : ∀ y ∈ log, (labels y.file).id = (labels x.file).id → y.file = x.file) :
    alsoWritten labels (filesOf log) x.file = filesOf (log ++ [x]) := by
  have known : ((filesOf log).any fun g => (labels g).id = (labels x.file).id) = true ↔
      x.file ∈ filesOf log := by
    simp only [List.any_eq_true, decide_eq_true_eq]
    refine ⟨fun ⟨g, hg, hid⟩ => ?_, fun hx => ⟨_, hx, rfl⟩⟩
    obtain ⟨y, hy, rfl⟩ := mem_filesOf.1 hg
    rwa [← distinct y hy hid]
  simp only [filesOf_snoc, alsoWritten, known]

def syncs (files : List FileNo) : List Made := files.map (.sync · .done)

theorem syncs_snoc (files : List FileNo) (f : FileNo) :
    syncs (files ++ [f]) = syncs files ++ [.sync f .done] := by
  rw [syncs, List.map_append]
  rfl

theorem made_sync {f : FileNo} (call : s.callOf task = some (f, .sync)) (fault : Option Fault) :
    s.made fault task = [.sync f (.ofResult (fun _ => .done) (s.files.sync fault f).2)] := by
  rw [made, call]
  rfl

/-! ### From frame to frame -/

def writesBelow (s : System) (i : FrameNo) : List Made :=
  s.writes (s.pool.ledger.framesBelow (·.dirty) i)

/-- The dirty frames below `i` have been written, and nothing else has changed. -/
def CleanBelow (s₀ : System) (i : FrameNo) (l : Ledger) : Prop :=
  s₀.pool.ledger.Cleans (s₀.pool.ledger.framesBelow (·.dirty) i) l

/-- How far a flush of everything has come that began in `s₀`. -/
inductive Cleaning (s₀ : System) : Task → List Made → System → Prop
  | look {i : FrameNo} {look : Option Ticket} {s : System} (hi : i ≤ s₀.pool.size)
      (same : s₀.Stays s) (ledger : s₀.CleanBelow i s.pool.ledger) :
      Cleaning s₀ (.flushAll i (filesOf (s₀.writesBelow i)) (.look look)) (s₀.writesBelow i) s
  | move {i : FrameNo} {o : Occupant} {l : Ledger} {x : Transfer} {s : System}
      (same : s₀.Stays s) (ledger : s₀.CleanBelow i l) (claimed : s.Claimed l i o x) :
      Cleaning s₀ (.flushAll i (filesOf (s₀.writesBelow i)) (.move x)) (s₀.writesBelow i) s
  | sync {n : Nat} {synced files : List FileNo} {s : System} (same : s₀.Stays s)
      (ledger : s₀.CleanBelow s₀.pool.size s.pool.ledger)
      (all : filesOf (s₀.writesBelow s₀.pool.size) = synced ++ files) :
      Cleaning s₀ (.syncAll n files)
        (s₀.writesBelow s₀.pool.size ++ syncs synced) s

/-- How a flush of everything can end that began in `s₀`. The frames are written in their order,
until one cannot be written; then the files that were written to are synced in the order of their
first writes, until one cannot be synced. -/
inductive Cleaned (s₀ : System) : Result → List Made → System → Prop
  | unwritten {v : FrameNo} {o : Occupant} {e : StoreError} {s : System}
      (occupant : s₀.pool.ledger.occupant? v = some o) (dirty : o.dirty = true)
      (same : s₀.Stays s) (ledger : s₀.CleanBelow v s.pool.ledger) :
      Cleaned s₀ (.refused (.store e))
        (s₀.writesBelow v ++ [.write o (s₀.pool.buffer v) (.refused e)]) s
  | unsynced {synced files : List FileNo} {f : FileNo} {e : StoreError} {s : System}
      (all : filesOf (s₀.writesBelow s₀.pool.size) = synced ++ f :: files) (same : s₀.Stays s)
      (ledger : s₀.CleanBelow s₀.pool.size s.pool.ledger)
      (clean : ∀ i o, s.pool.ledger.occupant? i = some o → o.dirty = false) :
      Cleaned s₀ (.refused (.store e))
        (s₀.writesBelow s₀.pool.size ++ syncs synced ++ [.sync f (.refused e)]) s
  | done {s : System} (same : s₀.Stays s) (ledger : s₀.CleanBelow s₀.pool.size s.pool.ledger)
      (clean : ∀ i o, s.pool.ledger.occupant? i = some o → o.dirty = false) :
      Cleaned s₀ .done
        (s₀.writesBelow s₀.pool.size ++ syncs (filesOf (s₀.writesBelow s₀.pool.size))) s

theorem CleanBelow.clean {l : Ledger} (h : s₀.CleanBelow s₀.pool.size l) (i : FrameNo)
    (o : Occupant) (ho : l.occupant? i = some o) : o.dirty = false := by
  have before := h.occupant i
  rw [ho] at before
  split at before
  · obtain ⟨q, -, rfl⟩ := Option.map_eq_some_iff.1 before.symm
    rfl
  · next hi =>
    refine Bool.eq_false_iff.2 fun dirty => hi (Ledger.mem_framesBelow.2 ⟨?_, o, before.symm, dirty⟩)
    exact Ledger.lt_size_of_occupant? before.symm

theorem CleanBelow.occupant_self {l : Ledger} {i : FrameNo} (h : s₀.CleanBelow i l) :
    l.occupant? i = s₀.pool.ledger.occupant? i :=
  h.occupant_of_not_mem (s₀.pool.ledger.not_mem_framesBelow _ i)

theorem CleanBelow.skip {l : Ledger} {i : FrameNo} (h : s₀.CleanBelow i l)
    (clean : ∀ o, l.occupant? i = some o → o.dirty = false) : s₀.CleanBelow (i + 1) l := by
  rwa [CleanBelow, Ledger.framesBelow_succ_of_none fun o ho => clean o (h.occupant_self.trans ho)]

theorem CleanBelow.snoc {l : Ledger} {i : FrameNo} {o : Occupant} (h : s₀.CleanBelow i l)
    (ho : l.occupant? i = some o) (dirty : o.dirty = true) :
    s₀.CleanBelow (i + 1) (l.setOccupant i o.cleaned) := by
  rw [CleanBelow, Ledger.framesBelow_succ_of_some (h.occupant_self.symm.trans ho) dirty]
  exact Ledger.Cleans.snoc h (s₀.pool.ledger.not_mem_framesBelow _ i) ho

theorem writesBelow_succ_of_some {i : FrameNo} {o : Occupant}
    (ho : s.pool.ledger.occupant? i = some o) (dirty : o.dirty = true) :
    s.writesBelow (i + 1) = s.writesBelow i ++ [.write o (s.pool.buffer i) .done] := by
  rw [writesBelow, Ledger.framesBelow_succ_of_some ho dirty, writes_snoc _ ho]
  rfl

theorem writesBelow_succ_of_none {i : FrameNo}
    (h : ∀ o, s.pool.ledger.occupant? i = some o → o.dirty = false) :
    s.writesBelow (i + 1) = s.writesBelow i := by
  rw [writesBelow, Ledger.framesBelow_succ_of_none h, writesBelow]

section FlushAll

variable (distinct : s₀.files.Distinct)
  (opened : ∀ i o, s₀.pool.ledger.occupant? i = some o → s₀.hasFile o.file)

theorem Cleaning.written {n : Nat} (same : s₀.Stays s)
    (ledger : s₀.CleanBelow s₀.pool.size s.pool.ledger) :
    s₀.Cleaning (.syncAll n (filesOf (s₀.writesBelow s₀.pool.size))) (s₀.writesBelow s₀.pool.size)
      s := by
  have start : s₀.Cleaning (.syncAll n _) (_ ++ syncs []) s := .sync same ledger rfl
  rwa [syncs, List.map_nil, List.append_nil] at start

theorem cleaning_look (alone : s.Alone t) {i : FrameNo} {files : List FileNo}
    {look : Option Ticket} (ht : s.tasks.find? t = some (.flushAll i files (.look look)))
    (h : s₀.Cleaning (.flushAll i files (.look look)) log s) :
    Leads (Cleaning s₀ · log) (Cleaned s₀ · log)
      ((s.lookForFlushAll t i files).1.turnTo t (s.lookForFlushAll t i files).2.2)
      (s.lookForFlushAll t i files).2.2 := by
  cases h with
  | look hi same ledger =>
  have size : s.pool.size = s₀.pool.size := Ledger.Cleans.size ledger
  by_cases inside : i < s.pool.size
  · obtain ⟨l, r, ha⟩ : ∃ l r, s.pool.ledger.flushAllAt i = (l, r) := ⟨_, _, rfl⟩
    simp only [lookForFlushAll, if_pos inside, ha]
    have idle {o : Occupant} (ho : s.pool.ledger.occupant? i = some o) : o.io = .idle :=
      alone.io_eq_idle (transferOf_eq ht) ho
    cases Ledger.flushAllAt_cases ha with
    | skip clean =>
      have clean (o : Occupant) (ho : s.pool.ledger.occupant? i = some o) : o.dirty = false := by
        rcases clean o ho with loading | ⟨-, clean⟩
        · cases (idle ho).symm.trans loading
        · exact clean
      show Cleaning s₀ _ _ _
      rw [← writesBelow_succ_of_none fun o ho => clean o (ledger.occupant_self.trans ho)]
      exact .look (size ▸ inside) (same.trans ⟨rfl, rfl, rfl⟩) (ledger.skip clean)
    | wait ho hio => cases (idle ho).symm.trans hio
    | claimed ho hio dirty =>
      exact .move (same.trans ⟨rfl, rfl, rfl⟩) ledger ⟨ho, hio, dirty, rfl, rfl⟩
  · obtain rfl : i = s₀.pool.size := Nat.le_antisymm hi (size ▸ Nat.not_lt.1 inside)
    simp only [lookForFlushAll, if_neg inside]
    exact .written (same.trans ⟨rfl, rfl, rfl⟩) ledger

include distinct opened in
theorem cleaning_step (alone : s.Alone t) (ht : s.tasks.find? t = some task)
    (h : s₀.Cleaning task log s) (fault : Option Fault) :
    Leads (Cleaning s₀ · (log ++ s.made fault task)) (Cleaned s₀ · (log ++ s.made fault task))
      ((s.advance t fault task).1.turnTo t (s.advance t fault task).2.2)
      (s.advance t fault task).2.2 := by
  cases h with
  | look hi same ledger =>
    rw [made_of_silent rfl, List.append_nil]
    exact cleaning_look alone ht (.look hi same ledger)
  | @move i o l x _ same ledger claimed =>
    have moves : (Task.flushAll i (filesOf (s₀.writesBelow i)) (.move x)).transfer? = some x := rfl
    have ends := claimed.writesBack moves t fault
    have before := ledger.occupant_self.symm.trans claimed.occupant
    simp only [advance]
    generalize s.made fault _ = made, s.finishTransfer t x fault = r at ends ⊢
    cases ends with
    | refused stays restored =>
      rw [same.buffer]
      have same := same.trans stays
      exact .unwritten before claimed.dirty (same.trans ⟨rfl, rfl, rfl⟩) (restored ▸ ledger)
    | @written s' _ stays cleaned =>
      have same' := same.trans stays
      rw [same.buffer, ← writesBelow_succ_of_some before claimed.dirty]
      have known : alsoWritten s'.labels (filesOf (s₀.writesBelow i)) x.stay.file =
          filesOf (s₀.writesBelow (i + 1)) := by
        rw [claimed.transfer, same'.labels, writesBelow_succ_of_some before claimed.dirty]
        refine alsoWritten_filesOf (x := .write o (s₀.pool.buffer i) .done) fun y hy => ?_
        obtain ⟨j, p, hp, rfl⟩ := mem_writes hy
        exact distinct _ _ (opened j p hp) (opened i o before)
      rw [Leads, known]
      refine .look (Ledger.lt_size_of_occupant? before) (same'.trans ⟨rfl, rfl, rfl⟩) ?_
      show s₀.CleanBelow (i + 1) s'.pool.ledger
      rw [cleaned]
      exact ledger.snoc claimed.occupant claimed.dirty
  | @sync n synced files _ same ledger all =>
    cases files with
    | nil =>
      rw [List.append_nil] at all
      rw [← all, made_of_silent rfl, List.append_nil]
      exact .done (same.trans ⟨rfl, rfl, rfl⟩) ledger ledger.clean
    | cons f files =>
      have stays : s₀.Stays (s.setFiles (s.files.sync fault f).1) :=
        same.setFiles (Catalog.registry_sync ..)
      rw [made_sync rfl]
      simp only [advance]
      generalize s.files.sync fault f = r at stays ⊢
      obtain ⟨c, r⟩ := r
      cases r with
      | error e => exact .unsynced all (stays.trans ⟨rfl, rfl, rfl⟩) ledger ledger.clean
      | ok =>
        rw [List.append_cons] at all
        show Cleaning s₀ _ (_ ++ [.sync f .done]) _
        rw [List.append_assoc, ← syncs_snoc]
        exact .sync (stays.trans ⟨rfl, rfl, rfl⟩) ledger all

end FlushAll

end System

/-- Whatever the page files answer: a flush of everything that nobody disturbs writes the dirty
pages, pinned or not, each of them once and in the order of the frames. If one cannot be written, it
fails with that error, and this page and those behind it are as they were. If all have been written,
the files are synced, each of them once and in the order of the first writes, until one cannot be
synced, and nothing is dirty any more. No page moves, and nothing but the dirty bits of the written
pages changes. -/
theorem flushAll_undisturbed {n : Nat} (hn : 0 < n) {c : Catalog} (hd : c.Distinct) {h : History}
    {s : System} (run : ReachesShared (fun _ => True) (.new n c) h s)
    (idle : ∀ t, s.tasks.find? t = none) (t : TaskId) {faults : List (Option Fault)}
    (enough : s.ampleSteps ≤ faults.length) :
    ∃ s' log r, (s.begin t .flushAll).goOn faults t = (s', log, some r) ∧ s'.Quiescent ∧
      s.files.Logs log s'.files ∧ s.Cleaned r log s' := by
  have quiet := run.quiescent hn idle
  have opened (i : FrameNo) (o : Occupant) (ho : s.pool.ledger.occupant? i = some o) :
      s.hasFile o.file := (run.placed hn hd).opened ho
  have admits : s.Admits .flushAll := trivial
  have first : s.Cleaning (System.firstTask s.labels .flushAll) [] (s.begin t .flushAll) :=
    .look (Nat.zero_le _) ⟨rfl, rfl, rfl⟩ (.refl _)
  exact quiet.goOn (I := s.Cleaning) (Q := s.Cleaned) admits enough first
    fun fault alone ht h => System.cleaning_step (run.distinct hn hd) opened alone ht h fault

/-- Two dirty pages of one file are written in the order of their frames, and then the file is
synced once. -/
theorem flushAll_undisturbed_pair : ∃ h s, ReachesShared (fun _ => True) .pair h s ∧
    (∀ t, s.tasks.find? t = none) ∧ s.pool.ledger.framesBelow (·.dirty) 2 = [0, 1] ∧
    ∃ s' log, (s.begin 0 .flushAll).goOn (List.replicate 24 none) 0 = (s', log, some .done) ∧
      log = [⟨0, .write 0 (.page (s.pool.buffer 0)), .done⟩,
        ⟨0, .write 1 (.page (s.pool.buffer 1)), .done⟩, ⟨0, .sync, .done⟩] ∧
      s.files.Logs log s'.files ∧ s.Cleaned .done log s' := by
  have enough : (System.pair.play pairChanged).2.ampleSteps ≤
    (List.replicate 24 (none : Option Fault)).length := Nat.le_refl 24
  obtain ⟨s', log, r, hgo, -, logs, cleaned⟩ := flushAll_undisturbed Nat.zero_lt_two distinct_pair
    reaches_pairChanged.shared idle_pairChanged 0 enough
  have done : (((System.pair.play pairChanged).2.begin 0 .flushAll).goOn
    (List.replicate 24 none) 0).2.2 = some .done := rfl
  obtain rfl := Option.some.inj ((congrArg (·.2.2) hgo).symm.trans done)
  have calls : log = [⟨0, .write 0 (.page ((System.pair.play pairChanged).2.pool.buffer 0)), .done⟩,
      ⟨0, .write 1 (.page ((System.pair.play pairChanged).2.pool.buffer 1)), .done⟩,
      ⟨0, .sync, .done⟩] := by
    cases cleaned
    rfl
  exact ⟨_, _, reaches_pairChanged.shared, idle_pairChanged, rfl, s', log, hgo, calls, logs, cleaned⟩

end SecondChance
