import SecondChance.Proofs.System.UndisturbedFlushAll

/-!
What a flush of a file does that nobody disturbs.

It goes through the frames in their order and empties those that hold pages of the file, after
having written the dirty ones. At the first page that is pinned or cannot be written it stops, and
leaves the frames from there on as they were. If there is none, no page of the file is left, and the
file is synced if something has been written.
-/

namespace SecondChance

namespace Ledger

variable {l l' : Ledger} {i : FrameNo} {o : Occupant} {vs : List FrameNo} {labels : Labels}

/-! ### Frames made empty -/

/-- `l'` is `l` with some frames empty, and their pages no longer in the table. -/
structure Empties (l : Ledger) (vs : List FrameNo) (l' : Ledger) : Prop where
  size : l'.size = l.size
  hand : l'.hand = l.hand
  table (k : PageKey) : l'.table.find? k = (l.table.find? k).filter (· ∉ vs)
  generation (j : FrameNo) : l'.generation j = l.generation j
  occupant (j : FrameNo) : l'.occupant? j = if j ∈ vs then none else l.occupant? j

theorem Empties.refl (l : Ledger) : l.Empties [] l := by
  refine ⟨rfl, rfl, fun k => ?_, fun _ => rfl, fun _ => rfl⟩
  cases l.table.find? k <;> rfl

theorem Empties.occupant_of_not_mem (h : l.Empties vs l') (hi : i ∉ vs) :
    l'.occupant? i = l.occupant? i :=
  (h.occupant i).trans (if_neg hi)

theorem Empties.snoc (h : l.Empties vs l') (consistent : l'.Consistent labels)
    (ho : l'.occupant? i = some o) : l.Empties (vs ++ [i]) (l'.vacate i (o.key labels)) where
  size := (size_vacate ..).trans h.size
  hand := h.hand
  table k := by
    rw [table_vacate, consistent.find?_erase ho, h.table, Option.filter_filter]
    simp only [List.mem_append, List.mem_singleton, not_or, Bool.decide_and]
  generation j := (generation_vacate ..).trans (h.generation j)
  occupant j := by
    rw [occupant?_vacate (lt_size_of_occupant? ho), h.occupant]
    by_cases hj : i = j
    · simp [hj]
    · simp [hj, Ne.symm hj]

end Ledger

namespace System

variable {s₀ s : System} {t : TaskId} {task : Task} {fault : Option Fault} {log : List Made}
  {f : FileNo}

/-! ### From frame to frame -/

/-- What has been written when the dirty pages of a file in the frames below `i` have been. -/
def writesOfBelow (s : System) (f : FileNo) (i : FrameNo) : List Made :=
  s.writes (s.pool.ledger.framesBelow (fun o => o.file = f && o.dirty) i)

/-- The frames below `i` that held pages of a file, none of them pinned, have been emptied, and
nothing else has changed. -/
structure EmptyBelow (s₀ : System) (f : FileNo) (i : FrameNo) (l : Ledger) : Prop where
  empties : s₀.pool.ledger.Empties (s₀.pool.ledger.framesBelow (·.file = f) i) l
  unpinned : ∀ j ∈ s₀.pool.ledger.framesBelow (·.file = f) i, ∀ o,
    s₀.pool.ledger.occupant? j = some o → o.pins = 0

/-- How far a flush of a file has come that began in `s₀`. -/
inductive Emptying (s₀ : System) (f : FileNo) : Task → List Made → System → Prop
  | look {i : FrameNo} {look : Option Ticket} {s : System} (hi : i ≤ s₀.pool.size)
      (same : s₀.Stays s) (ledger : s₀.EmptyBelow f i s.pool.ledger) :
      Emptying s₀ f (.flushFile f i (s₀.writesOfBelow f i).length (.look look))
        (s₀.writesOfBelow f i) s
  | move {i : FrameNo} {o : Occupant} {l : Ledger} {x : Transfer} {s : System}
      (same : s₀.Stays s) (ledger : s₀.EmptyBelow f i l) (claimed : s.Claimed l i o x)
      (file : o.file = f) (unpinned : o.pins = 0) :
      Emptying s₀ f (.flushFile f i (s₀.writesOfBelow f i).length (.move x))
        (s₀.writesOfBelow f i) s
  -- The page has been written, and its frame is looked at once more.
  | again {i : FrameNo} {look : Option Ticket} {o : Occupant} {l : Ledger} {s : System}
      (same : s₀.Stays s) (ledger : s₀.EmptyBelow f i l) (occupant : l.occupant? i = some o)
      (idle : o.io = .idle) (file : o.file = f) (unpinned : o.pins = 0)
      (written : s.pool.ledger = l.setOccupant i o.cleaned) :
      Emptying s₀ f (.flushFile f i (s₀.writesOfBelow f (i + 1)).length (.look look))
        (s₀.writesOfBelow f (i + 1)) s
  | sync {w : Nat} {s : System} (same : s₀.Stays s)
      (ledger : s₀.EmptyBelow f s₀.pool.size s.pool.ledger)
      (nonempty : s₀.writesOfBelow f s₀.pool.size ≠ []) :
      Emptying s₀ f (.syncFile f w) (s₀.writesOfBelow f s₀.pool.size) s

/-- How a flush of a file can end that began in `s₀`. The frames with pages of the file are emptied
in their order, dirty pages after having been written, until one is pinned or cannot be written;
then the file is synced if something has been written. -/
inductive Emptied (s₀ : System) (f : FileNo) : Result → List Made → System → Prop
  | pinned {v : FrameNo} {o : Occupant} {s : System}
      (occupant : s₀.pool.ledger.occupant? v = some o) (file : o.file = f) (pinned : o.pins ≠ 0)
      (same : s₀.Stays s) (ledger : s₀.EmptyBelow f v s.pool.ledger) :
      Emptied s₀ f (.refused (.pinned (s₀.name f) o.page v)) (s₀.writesOfBelow f v) s
  | unwritten {v : FrameNo} {o : Occupant} {e : StoreError} {s : System}
      (occupant : s₀.pool.ledger.occupant? v = some o) (file : o.file = f) (unpinned : o.pins = 0)
      (dirty : o.dirty = true) (idle : o.io = .idle) (same : s₀.Stays s)
      (ledger : s₀.EmptyBelow f v s.pool.ledger) :
      Emptied s₀ f (.refused (.store e))
        (s₀.writesOfBelow f v ++ [.write o (s₀.pool.buffer v) (.refused e)]) s
  | unsynced {e : StoreError} {s : System} (nonempty : s₀.writesOfBelow f s₀.pool.size ≠ [])
      (same : s₀.Stays s) (ledger : s₀.EmptyBelow f s₀.pool.size s.pool.ledger)
      (gone : ∀ i o, s.pool.ledger.occupant? i = some o → o.file ≠ f) :
      Emptied s₀ f (.refused (.store e))
        (s₀.writesOfBelow f s₀.pool.size ++ [.sync f (.refused e)]) s
  | done {s : System} (same : s₀.Stays s) (ledger : s₀.EmptyBelow f s₀.pool.size s.pool.ledger)
      (gone : ∀ i o, s.pool.ledger.occupant? i = some o → o.file ≠ f) :
      Emptied s₀ f .done (s₀.writesOfBelow f s₀.pool.size ++
        if (s₀.writesOfBelow f s₀.pool.size).isEmpty then [] else [.sync f .done]) s

namespace EmptyBelow

variable {l : Ledger} {i : FrameNo} {o : Occupant}

theorem zero (s : System) (f : FileNo) : s.EmptyBelow f 0 s.pool.ledger :=
  ⟨.refl _, fun _ hj => by cases hj⟩

variable (h : s₀.EmptyBelow f i l)
include h

theorem occupant_self : l.occupant? i = s₀.pool.ledger.occupant? i :=
  h.empties.occupant_of_not_mem (s₀.pool.ledger.not_mem_framesBelow _ i)

theorem skip (other : ∀ o, l.occupant? i = some o → o.file ≠ f) : s₀.EmptyBelow f (i + 1) l := by
  have skipped : s₀.pool.ledger.framesBelow (·.file = f) (i + 1) =
      s₀.pool.ledger.framesBelow (·.file = f) i :=
    Ledger.framesBelow_succ_of_none fun o ho =>
      decide_eq_false (other o (h.occupant_self.trans ho))
  constructor
  · rw [skipped]
    exact h.empties
  · rw [skipped]
    exact h.unpinned

theorem snoc {labels : Labels} (consistent : l.Consistent labels) (ho : l.occupant? i = some o)
    (file : o.file = f) (unpinned : o.pins = 0) :
    s₀.EmptyBelow f (i + 1) (l.vacate i (o.key labels)) := by
  have before := h.occupant_self.symm.trans ho
  have more : s₀.pool.ledger.framesBelow (·.file = f) (i + 1) =
      s₀.pool.ledger.framesBelow (·.file = f) i ++ [i] :=
    Ledger.framesBelow_succ_of_some before (decide_eq_true file)
  constructor
  · rw [more]
    exact h.empties.snoc consistent ho
  · intro j hj p hp
    rw [more] at hj
    rcases List.mem_append.1 hj with hj | hj
    · exact h.unpinned j hj p hp
    · obtain rfl := List.mem_singleton.1 hj
      obtain rfl := Option.some.inj (before.symm.trans hp)
      exact unpinned

end EmptyBelow

theorem EmptyBelow.gone {l : Ledger} (h : s₀.EmptyBelow f s₀.pool.size l) (i : FrameNo)
    (o : Occupant) (ho : l.occupant? i = some o) : o.file ≠ f := by
  have before := h.empties.occupant i
  rw [ho] at before
  split at before
  · cases before
  · next hi =>
    intro file
    refine hi (Ledger.mem_framesBelow.2 ⟨?_, o, before.symm, decide_eq_true file⟩)
    exact Ledger.lt_size_of_occupant? before.symm

theorem writesOfBelow_succ_of_some {i : FrameNo} {o : Occupant}
    (ho : s.pool.ledger.occupant? i = some o) (file : o.file = f) (dirty : o.dirty = true) :
    s.writesOfBelow f (i + 1) = s.writesOfBelow f i ++ [.write o (s.pool.buffer i) .done] := by
  have wanted : (decide (o.file = f) && o.dirty) = true := by
    rw [dirty, Bool.and_true]
    exact decide_eq_true file
  rw [writesOfBelow, Ledger.framesBelow_succ_of_some ho wanted, writes_snoc _ ho]
  rfl

theorem writesOfBelow_succ_of_none {i : FrameNo}
    (h : ∀ o, s.pool.ledger.occupant? i = some o → o.file = f → o.dirty = false) :
    s.writesOfBelow f (i + 1) = s.writesOfBelow f i := by
  rw [writesOfBelow, Ledger.framesBelow_succ_of_none, writesOfBelow]
  intro o ho
  by_cases file : o.file = f
  · rw [h o ho file, Bool.and_false]
  · rw [decide_eq_false file, Bool.false_and]

section FlushFile

variable (distinct : s₀.files.Distinct)
  (opened : ∀ i o, s₀.pool.ledger.occupant? i = some o → s₀.hasFile o.file) (hf : s₀.hasFile f)

include distinct opened hf in
theorem emptying_look (alone : s.Alone t) {i : FrameNo} {look : Option Ticket}
    (ht : s.tasks.find? t =
      some (.flushFile f i (s₀.writesOfBelow f i).length (.look look)))
    (hi : i ≤ s₀.pool.size) (same : s₀.Stays s) (ledger : s₀.EmptyBelow f i s.pool.ledger) :
    Leads (Emptying s₀ f · (s₀.writesOfBelow f i)) (Emptied s₀ f · (s₀.writesOfBelow f i))
      ((s.lookForFlushFile t f i (s₀.writesOfBelow f i).length).1.turnTo t
        (s.lookForFlushFile t f i (s₀.writesOfBelow f i).length).2.2)
      (s.lookForFlushFile t f i (s₀.writesOfBelow f i).length).2.2 := by
  have size : s.pool.size = s₀.pool.size := ledger.empties.size
  by_cases inside : i < s.pool.size
  · obtain ⟨l, r, ha⟩ : ∃ l r,
        s.pool.ledger.flushFileAt s.labels i (s.labels f).id = (l, r) := ⟨_, _, rfl⟩
    simp only [lookForFlushFile, if_pos inside, ha]
    have idle {o : Occupant} (ho : s.pool.ledger.occupant? i = some o) : o.io = .idle :=
      alone.io_eq_idle (transferOf_eq ht) ho
    have consistent := alone.regular.consistent
    have ofFile {o : Occupant} (ho : s.pool.ledger.occupant? i = some o)
        (hid : (s.labels o.file).id = (s.labels f).id) : o.file = f := by
      rw [same.labels] at hid
      exact distinct _ _ (opened i o (ledger.occupant_self.symm.trans ho)) hf hid
    cases Ledger.flushFileAt_cases ha with
    | skip other =>
      have log : s₀.writesOfBelow f (i + 1) = s₀.writesOfBelow f i :=
        writesOfBelow_succ_of_none fun o ho file =>
          (other o (ledger.occupant_self.trans ho) (by rw [file])).elim
      show Emptying s₀ f _ _ _
      rw [← log]
      exact .look (size ▸ inside) (same.trans ⟨rfl, rfl, rfl⟩)
        (ledger.skip fun o ho file => other o ho (by rw [file]))
    | astray ho _ hk => exact (hk (consistent.find?_key ho)).elim
    | @pinned o ho hid hp =>
      have file := ofFile ho hid
      have name : (s.labels o.file).name = s₀.name f := by rw [file, same.labels]; rfl
      rw [name]
      exact .pinned (ledger.occupant_self.symm.trans ho) file hp (same.trans ⟨rfl, rfl, rfl⟩)
        ledger
    | wait ho _ busy => exact ((Occupant.standing_eq_busy.1 busy).2 (idle ho)).elim
    | claimed ho hid available dirty =>
      exact .move (same.trans ⟨rfl, rfl, rfl⟩) ledger ⟨ho, idle ho, dirty, rfl, rfl⟩
        (ofFile ho hid) (Occupant.standing_eq_available.1 available).1
    | @emptied o ho hid available clean =>
      have log : s₀.writesOfBelow f (i + 1) = s₀.writesOfBelow f i :=
        writesOfBelow_succ_of_none fun q hq _ => by
          obtain rfl := Option.some.inj (ho.symm.trans (ledger.occupant_self.trans hq))
          exact clean
      show Emptying s₀ f _ _ _
      rw [← log]
      exact .look (size ▸ inside) (same.trans ⟨rfl, rfl, rfl⟩)
        (ledger.snoc consistent ho (ofFile ho hid) (Occupant.standing_eq_available.1 available).1)
  · obtain rfl : i = s₀.pool.size := Nat.le_antisymm hi (size ▸ Nat.not_lt.1 inside)
    simp only [lookForFlushFile, if_neg inside]
    by_cases empty : s₀.writesOfBelow f s₀.pool.size = []
    · rw [if_pos (by rw [empty]; rfl)]
      have still : s₀.Stays (s.endTask t) := same.trans ⟨rfl, rfl, rfl⟩
      have done := Emptied.done still ledger ledger.gone
      rwa [if_pos (by rw [empty]; rfl), List.append_nil] at done
    · rw [if_neg (by rwa [List.length_eq_zero_iff])]
      exact .sync (same.trans ⟨rfl, rfl, rfl⟩) ledger empty

theorem emptying_again (alone : s.Alone t) {i w : Nat} {look : Option Ticket} {o : Occupant}
    {l : Ledger} (ht : s.tasks.find? t = some (.flushFile f i w (.look look)))
    (hw : w = (s₀.writesOfBelow f (i + 1)).length) (same : s₀.Stays s)
    (ledger : s₀.EmptyBelow f i l) (occupant : l.occupant? i = some o) (idle : o.io = .idle)
    (file : o.file = f) (unpinned : o.pins = 0)
    (written : s.pool.ledger = l.setOccupant i o.cleaned) :
    Leads (Emptying s₀ f · (s₀.writesOfBelow f (i + 1)))
      (Emptied s₀ f · (s₀.writesOfBelow f (i + 1)))
      ((s.lookForFlushFile t f i w).1.turnTo t (s.lookForFlushFile t f i w).2.2)
      (s.lookForFlushFile t f i w).2.2 := by
  have hi := Ledger.lt_size_of_occupant? occupant
  have now : s.pool.ledger.occupant? i = some o.cleaned := by
    rw [written, Ledger.occupant?_setOccupant hi, if_pos rfl]
  have inside : i < s.pool.size := Ledger.lt_size_of_occupant? now
  have size : s.pool.size = s₀.pool.size := by
    rw [Pool.size, written, Ledger.size_setOccupant, ledger.empties.size]
    rfl
  have consistent : l.Consistent s.labels := by
    have back := alone.regular.consistent.setOccupant (p := o) now rfl
    rwa [written, Ledger.setOccupant_setOccupant hi, Ledger.setOccupant_self occupant] at back
  obtain ⟨l', r, ha⟩ : ∃ l' r,
      s.pool.ledger.flushFileAt s.labels i (s.labels f).id = (l', r) := ⟨_, _, rfl⟩
  simp only [lookForFlushFile, if_pos inside, ha]
  cases Ledger.flushFileAt_cases ha with
  | skip other => exact (other _ now (by rw [← file]; rfl)).elim
  | astray ho _ hk => exact (hk (alone.regular.consistent.find?_key ho)).elim
  | pinned ho _ hp =>
    obtain rfl := Option.some.inj (now.symm.trans ho)
    exact (hp unpinned).elim
  | wait ho _ busy =>
    obtain rfl := Option.some.inj (now.symm.trans ho)
    exact ((Occupant.standing_eq_busy.1 busy).2 idle).elim
  | claimed ho _ _ dirty =>
    obtain rfl := Option.some.inj (now.symm.trans ho)
    cases dirty
  | emptied ho =>
    obtain rfl := Option.some.inj (now.symm.trans ho)
    have empty := ledger.snoc consistent occupant file unpinned
    rw [← Ledger.vacate_setOccupant (o := o.cleaned) hi, ← written] at empty
    subst hw
    exact .look (size ▸ inside) (same.trans ⟨rfl, rfl, rfl⟩) empty

include distinct opened hf in
theorem emptying_step (alone : s.Alone t) (ht : s.tasks.find? t = some task)
    (h : s₀.Emptying f task log s) (fault : Option Fault) :
    Leads (Emptying s₀ f · (log ++ s.made fault task)) (Emptied s₀ f · (log ++ s.made fault task))
      ((s.advance t fault task).1.turnTo t (s.advance t fault task).2.2)
      (s.advance t fault task).2.2 := by
  cases h with
  | look hi same ledger =>
    rw [made_of_silent rfl, List.append_nil]
    exact emptying_look distinct opened hf alone ht hi same ledger
  | again same ledger occupant idle file unpinned written =>
    rw [made_of_silent rfl, List.append_nil]
    exact emptying_again alone ht rfl same ledger occupant idle file unpinned written
  | @move i o l x _ same ledger claimed file unpinned =>
    have moves : (Task.flushFile f i (s₀.writesOfBelow f i).length (.move x)).transfer? = some x :=
      rfl
    have ends := claimed.writesBack moves t fault
    have before := ledger.occupant_self.symm.trans claimed.occupant
    simp only [advance]
    generalize s.made fault _ = made, s.finishTransfer t x fault = r at ends ⊢
    cases ends with
    | refused stays restored =>
      have same' := same.trans stays
      rw [same.buffer]
      exact .unwritten before file unpinned claimed.dirty claimed.idle
        (same'.trans ⟨rfl, rfl, rfl⟩) (restored ▸ ledger)
    | @written s' _ stays cleaned =>
      have same' := same.trans stays
      have more := writesOfBelow_succ_of_some before file claimed.dirty
      have length : (s₀.writesOfBelow f i).length + 1 = (s₀.writesOfBelow f (i + 1)).length := by
        rw [more, List.length_append]
        rfl
      rw [Leads, same.buffer, ← more, length]
      exact .again (same'.trans ⟨rfl, rfl, rfl⟩) ledger claimed.occupant claimed.idle file
        unpinned cleaned
  | sync same ledger nonempty =>
    have stays : s₀.Stays (s.setFiles (s.files.sync fault f).1) :=
      same.setFiles (Catalog.registry_sync ..)
    rw [made_sync rfl]
    simp only [advance]
    generalize s.files.sync fault f = r at stays ⊢
    obtain ⟨c, r⟩ := r
    cases r with
    | error e => exact .unsynced nonempty (stays.trans ⟨rfl, rfl, rfl⟩) ledger ledger.gone
    | ok =>
      have still : s₀.Stays ((s.setFiles c).endTask t) := stays.trans ⟨rfl, rfl, rfl⟩
      have done := Emptied.done still ledger ledger.gone
      rwa [if_neg (by rwa [List.isEmpty_iff])] at done

end FlushFile

end System

/-- Whatever the page files answer: a flush of a file that nobody disturbs goes through the frames
with pages of the file in their order, up to the first that is pinned or cannot be written. Each
page before that has been written once if it was dirty, and not at all otherwise, and its frame is
empty and its key no longer in the table; that frame and those behind it are as they were. If there
is no such frame, the file is synced if something has been written, and no page of it is left.
Nothing else changes. -/
theorem flushFile_undisturbed {n : Nat} (hn : 0 < n) {c : Catalog} (hd : c.Distinct) {h : History}
    {s : System} (run : ReachesShared (fun _ => True) (.new n c) h s)
    (idle : ∀ t, s.tasks.find? t = none) {f : FileNo} (hf : f < c.files.size) (t : TaskId)
    {faults : List (Option Fault)} (enough : s.ampleSteps ≤ faults.length) :
    ∃ s' log r, (s.begin t (.flushFile f)).goOn faults t = (s', log, some r) ∧ s'.Quiescent ∧
      s.files.Logs log s'.files ∧ s.Emptied f r log s' := by
  have quiet := run.quiescent hn idle
  have hf : s.hasFile f := (run.hasFile hn f).2 hf
  have opened (i : FrameNo) (o : Occupant) (ho : s.pool.ledger.occupant? i = some o) :
      s.hasFile o.file := (run.placed hn hd).opened ho
  have first : s.Emptying f (System.firstTask s.labels (.flushFile f)) []
      (s.begin t (.flushFile f)) :=
    .look (Nat.zero_le _) ⟨rfl, rfl, rfl⟩ (.zero s f)
  have admits : s.Admits (.flushFile f) := hf
  exact quiet.goOn (I := s.Emptying f) (Q := s.Emptied f) admits enough first
    fun fault alone ht h =>
      System.emptying_step (run.distinct hn hd) opened hf alone ht h fault

/-- The dirty page in the first of two frames is written and leaves its frame. The page in the
second is pinned, so the flush ends there, and that page stays. -/
theorem flushFile_undisturbed_pair : ∃ h s, ReachesShared (fun _ => True) .pair h s ∧
    (∀ t, s.tasks.find? t = none) ∧ s.pool.ledger.framesBelow (·.file = 0) 2 = [0, 1] ∧
    ∃ s' log, (s.begin 0 (.flushFile 0)).goOn (List.replicate 24 none) 0 =
        (s', log, some (.refused (.pinned "pair" 1 1))) ∧
      log = [⟨0, .write 0 (.page (s.pool.buffer 0)), .done⟩] ∧
      s'.pool.ledger.occupant? 0 = none ∧
      s'.pool.ledger.occupant? 1 = s.pool.ledger.occupant? 1 ∧
      s.files.Logs log s'.files ∧ s.Emptied 0 (.refused (.pinned "pair" 1 1)) log s' := by
  have enough : (System.pair.play pairHeld).2.ampleSteps ≤
    (List.replicate 24 (none : Option Fault)).length := Nat.le_refl 24
  obtain ⟨s', log, r, hgo, -, logs, emptied⟩ := flushFile_undisturbed Nat.zero_lt_two distinct_pair
    reaches_pairHeld.shared idle_pairHeld Nat.zero_lt_one 0 enough
  have refused : (((System.pair.play pairHeld).2.begin 0 (.flushFile 0)).goOn
    (List.replicate 24 none) 0).2.2 = some (.refused (.pinned "pair" 1 1)) := rfl
  obtain rfl := Option.some.inj ((congrArg (·.2.2) hgo).symm.trans refused)
  have ends : log = [⟨0, .write 0 (.page ((System.pair.play pairHeld).2.pool.buffer 0)), .done⟩] ∧
      s'.pool.ledger.occupant? 0 = none ∧ s'.pool.ledger.occupant? 1 =
        (System.pair.play pairHeld).2.pool.ledger.occupant? 1 := by
    generalize he : Result.refused (.pinned "pair" 1 1) = r at emptied
    cases emptied with
    | pinned occupant file pinned same ledger =>
      injection he with he
      injection he with _ _ hv
      subst hv
      exact ⟨rfl, ledger.empties.occupant 0, ledger.occupant_self⟩
    | unwritten | unsynced | done => cases he
  exact ⟨_, _, reaches_pairHeld.shared, idle_pairHeld, rfl, s', log, hgo, ends.1, ends.2.1, ends.2.2,
    logs, emptied⟩

end SecondChance
