import SecondChance.Proofs.System.Changes
import SecondChance.Proofs.System.TaskTurns

/-!
The way of a flush through the frames.

A flush of everything goes from frame to frame and leaves each of them only when there is nothing to
write in it: the frame is empty, its page is still being loaded or is clean, or the flush itself has
written the page. Meanwhile an unsaved page stays in its frame, so the flush cannot miss it. Either
it finds the page, or somebody else has written the page before that.
-/

namespace SecondChance

/-- The task flushes everything, or syncs the files to which it has written. -/
def Task.isFlush : Task → Bool
  | .flushAll .. | .syncAll .. => true
  | _ => false

def Move.Begins (t : TaskId) : Move → Prop
  | .begin u _ => u = t
  | _ => False

namespace System

variable {s s' : System} {ks : List Mark} {t : TaskId} {m : Move} {stay : Stay} {i : FrameNo}
  {fault : Option Fault}

/-- A flush of everything has not left a frame behind. While it moves a page, that is the page of
the frame that it has come to. -/
def Approaches (s : System) (t : TaskId) (i : FrameNo) : Prop :=
  ∃ j files stage, s.tasks.find? t = some (.flushAll j files stage) ∧ j ≤ i ∧
    ∀ x, stage.transfer? = some x → x.stay.frame = j

theorem approaches_of_look {i j : FrameNo} {files : List FileNo} {look : Option Ticket}
    (ht : s.tasks.find? t = some (.flushAll j files (.look look))) (hj : j ≤ i) :
    s.Approaches t i := by
  refine ⟨j, files, .look look, ht, hj, fun x hx => ?_⟩
  cases hx

theorem unsaved_after (hs : s.Sound ks) (hp : s.Permits m) (hm : m.IsFair)
    (hf : s.hasFile stay.file) (hu : s.pool.ledger.Unsaved stay) :
    (s.after m).pool.ledger.Unsaved stay ∨ (s.after m).IsStored stay.file stay.page := by
  cases hc : s.changeBy stay.file stay.page m with
  | some x =>
    obtain ⟨-, hledger, -⟩ := changeBy_eq_some hc
    rw [hledger]
    exact .inl hu
  | none =>
    have acts := acts_after hs.regular.orderly hs.regular.consistent.size_pos hp
    exact acts.unsaved hs (fun k hk => hm.mark hk) hf (fun k hk => changeBy_eq_none hc hk) hu

/-- A flush that looks at a frame goes on to the next one only if there is nothing to write. -/
theorem approaches_look {j : FrameNo} {files : List FileNo} {look : Option Ticket}
    (ht : s.tasks.find? t = some (.flushAll j files (.look look)))
    (hu : s.pool.ledger.Unsaved stay) (hj : j ≤ stay.frame) :
    (s.after (.resume t fault)).Approaches t stay.frame := by
  have find := find?_after_resume ht fault
  have hsize := hu.lt_size
  have hlt : j < s.pool.size := Nat.lt_of_le_of_lt hj hsize
  obtain ⟨l, r, ha⟩ : ∃ l r, s.pool.ledger.flushAllAt j = (l, r) := ⟨_, _, rfl⟩
  simp only [advance, lookForFlushAll, if_pos hlt, ha] at find
  cases Ledger.flushAllAt_cases ha with
  | skip hskip =>
    have hne : j ≠ stay.frame := by
      rintro rfl
      obtain ⟨o, hat, -, -, hio, hd⟩ := hu
      rcases hskip o (Ledger.occupantAt_frame.1 hat).2 with hl | ⟨hidle, hclean⟩
      · exact hio hl
      · simp [hidle, hclean] at hd
    exact approaches_of_look find (Nat.lt_of_le_of_ne hj hne)
  | wait => exact approaches_of_look find hj
  | @claimed o ho =>
    refine ⟨j, files, .move ⟨.writeBack, s.pool.ledger.stayOf j o⟩, find, hj, ?_⟩
    intro x hx
    obtain rfl := Option.some.inj hx
    rfl

theorem approaches_move {j : FrameNo} {files : List FileNo} {x : Transfer} (hs : s.Sound ks)
    (hp : s.Permits (.resume t fault)) (ht : s.tasks.find? t = some (.flushAll j files (.move x)))
    (hu : s.pool.ledger.Unsaved stay) (hj : j ≤ stay.frame) (hx : x.stay.frame = j) :
    (s.after (.resume t fault)).IsStored stay.file stay.page ∨
      (s.after (.resume t fault)).tasks.find? t = none ∨
      (s.after (.resume t fault)).Approaches t stay.frame := by
  have find := find?_after_resume ht fault
  obtain ⟨kind, y⟩ := x
  obtain rfl : kind = .writeBack := hs.regular.orderly.proper ht
  have hx : y.frame = j := hx
  have transfer : s.transferOf t = some ⟨.writeBack, y⟩ := transferOf_eq ht
  obtain ⟨catalog, r, hr⟩ : ∃ catalog r,
    s.files.write fault y.file y.page (.page (s.pool.buffer y.frame)) = (catalog, r) := ⟨_, _, rfl⟩
  have hl := Catalog.registry_write s.files fault y.file y.page (.page (s.pool.buffer y.frame))
  rw [hr] at hl
  simp only [advance, finishTransfer, finishWriteBack, hr] at find
  cases r with
  | error e => exact .inr (.inl find)
  | ok =>
    by_cases hframe : y.frame = stay.frame
    · obtain ⟨hf, hpage⟩ := hs.regular.page_of_unsaved transfer hu hframe
      have acts := acts_after hs.regular.orderly hs.regular.consistent.size_pos hp
      left
      rw [← hf, ← hpage]
      refine isStored_of_written hs.regular (acts.regular hs.regular) hs.faithful transfer hr ?_ ?_ ?_
      all_goals
        simp only [after, resume_fst ht, advance, finishTransfer, finishWriteBack, hr,
          Catalog.labels_of_registry hl]
        rfl
    · have hlt : j < stay.frame := Nat.lt_of_le_of_ne hj (hx ▸ hframe)
      exact .inr (.inr (approaches_of_look find hlt))

/-- While a flush goes on, nobody who acts takes it past an unsaved page. -/
theorem approaches_after (hs : s.Sound ks) (hp : s.Permits m) (hm : m.IsFair) (hb : ¬ m.Begins t)
    (hf : s.hasFile stay.file) (hu : s.pool.ledger.Unsaved stay) (ha : s.Approaches t stay.frame) :
    (s.after m).IsStored stay.file stay.page ∨ (s.after m).tasks.find? t = none ∨
      ((s.after m).pool.ledger.Unsaved stay ∧ (s.after m).Approaches t stay.frame) := by
  rcases unsaved_after hs hp hm hf hu with hu' | stored
  · by_cases hturn : m.turn? = some t
    · obtain ⟨j, files, stage, ht, hj, hx⟩ := ha
      cases m with
      | begin u op => exact (hb (Option.some.inj hturn)).elim
      | resume u fault =>
        obtain rfl := Option.some.inj hturn
        cases stage with
        | look => exact .inr (.inr ⟨hu', approaches_look ht hu hj⟩)
        | move x =>
          have moved := approaches_move hs hp ht hu hj (hx x rfl)
          exact moved.imp_right fun h => h.imp_right fun ha => ⟨hu', ha⟩
      | cancel u =>
        obtain rfl := Option.some.inj hturn
        right
        left
        rw [after, tasks_cancel ht, Table.find?_erase_self]
      | abandon u =>
        obtain rfl := Option.some.inj hturn
        obtain ⟨h, y, purpose, stage', ht'⟩ := hp
        cases ht.symm.trans ht'
      | _ => cases hturn
    · have same := find?_after_of_ne hs.regular.consistent.size_pos hp hturn
      refine .inr (.inr ⟨hu', ?_⟩)
      rw [Approaches, same]
      exact ha
  · exact .inl stored

/-! ### The turn of a flush -/

/-- What the turn of a flush comes to: it goes on as a flush, fails, or is done behind the last
file. -/
inductive FlushTurn (task : Task) : Turn → Prop
  | goesOn {task' : Task} (h : task'.isFlush = true) : FlushTurn task (.goesOn task')
  | fails (e : PoolError) : FlushTurn task (.ends (.refused e))
  | done {n : Nat} (h : task = .syncAll n []) : FlushTurn task (.ends .done)

theorem handles_finishTransfer (s : System) (t : TaskId) (x : Transfer) (fault : Option Fault) :
    (s.finishTransfer t x fault).1.handles = s.handles := by
  obtain ⟨kind, stay⟩ := x
  cases kind with simp only [finishTransfer]
  | load => simp only [finishLoad]; split <;> rfl
  | writeBack => simp only [finishWriteBack]; split <;> rfl

theorem flushTurn_advance {task : Task} (h : task.isFlush = true) :
    (s.advance t fault task).1.handles = s.handles ∧
      FlushTurn task (s.advance t fault task).2.2 := by
  cases task with
  | flushAll j files stage =>
    cases stage with
    | look =>
      simp only [advance, lookForFlushAll]
      repeat' split
      all_goals exact ⟨rfl, .goesOn rfl⟩
    | move x =>
      have handles := s.handles_finishTransfer t x fault
      simp only [advance]
      split
      · next hr => exact ⟨by rw [hr] at handles; exact handles, .fails _⟩
      · next hr => exact ⟨by rw [hr] at handles; exact handles, .goesOn rfl⟩
  | syncAll n files =>
    cases files with
    | nil => exact ⟨rfl, .done rfl⟩
    | cons =>
      simp only [advance]
      split
      · exact ⟨rfl, .fails _⟩
      · exact ⟨rfl, .goesOn rfl⟩
  | _ => cases h

/-- A flush that has not seen all frames is not done. -/
theorem result_ne_done (ha : s.Approaches t i) : (s.resume t fault).2.2 ≠ some .done := by
  obtain ⟨j, files, stage, ht, -⟩ := ha
  obtain ⟨-, turn⟩ : (s.advance t fault (.flushAll j files stage)).1.handles = s.handles ∧
    FlushTurn _ (s.advance t fault (.flushAll j files stage)).2.2 := flushTurn_advance rfl
  rw [result_resume ht]
  generalize (s.advance t fault (.flushAll j files stage)).2.2 = result at turn ⊢
  cases turn with
  | goesOn => nofun
  | fails => nofun
  | done h => cases h

/-! ### Closing -/

/-- Nobody has a page on loan, and nothing but a flush is in progress. -/
structure Closing (s : System) : Prop where
  unlent (h : HandleNo) : s.handles.find? h = none
  flushing {t : TaskId} {task : Task} (ht : s.tasks.find? t = some task) : task.isFlush = true

theorem find?_of_isIdle (idle : s.isIdle = true) :
    (∀ j, s.handles.find? j = none) ∧ ∀ t, s.tasks.find? t = none := by
  obtain ⟨handles, tasks⟩ : s.handles.entries.isEmpty = true ∧ s.tasks.entries.isEmpty = true := by
    simpa [Site.isIdle] using idle
  exact ⟨Table.find?_of_isEmpty handles, Table.find?_of_isEmpty tasks⟩

theorem Closing.begin (idle : s.isIdle = true) (t : TaskId) :
    (s.after (.begin t .flushAll)).Closing := by
  obtain ⟨handles, tasks⟩ := find?_of_isIdle idle
  refine ⟨handles, fun {u task} hu => ?_⟩
  rw [after, tasks_begin, Table.find?_insert, tasks] at hu
  split at hu
  · obtain rfl := Option.some.inj hu
    rfl
  · cases hu

namespace Closing

variable (h : s.Closing)
include h

theorem congr (hh : s'.handles = s.handles)
    (ht : ∀ t task, s'.tasks.find? t = some task → s.tasks.find? t = some task ∨
      task.isFlush = true) : s'.Closing where
  unlent j := by rw [hh, h.unlent]
  flushing {t task} hs := (ht t task hs).elim h.flushing id

theorem changeBy_eq_none (f : FileNo) (p : PageNo) (m : Move) : s.changeBy f p m = none := by
  cases hc : s.changeBy f p m with
  | none => rfl
  | some x =>
    obtain ⟨-, -, -, -, t, stay, e, ht, -⟩ := changeBy_eq_some hc
    exact nomatch h.flushing ht

theorem move (hn : 0 < s.pool.ledger.size) (hp : s.Permits m) (hm : m.IsFair)
    (hb : ∀ t, ¬ m.Begins t) : (s.after m).Closing := by
  cases m with
  | begin t op => exact (hb t rfl).elim
  | resume t fault =>
    obtain ⟨task, ht, -⟩ := isReady_iff.1 hp
    obtain ⟨handles, turn⟩ : (s.advance t fault task).1.handles = s.handles ∧
      FlushTurn task (s.advance t fault task).2.2 := flushTurn_advance (h.flushing ht)
    have tasks := (steps_advance hn task : s.Steps t task (s.advance t fault task)).tasks
    rw [after, resume_fst ht]
    refine h.congr ?_ fun u x hx => ?_
    · generalize (s.advance t fault task).2.2 = turn
      cases turn <;> exact handles
    · rw [find?_turnTo, tasks] at hx
      split at hx
      · generalize (s.advance t fault task).2.2 = result at turn hx
        cases turn with
        | goesOn hflush =>
          obtain rfl := Option.some.inj hx
          exact .inr hflush
        | _ => cases hx
      · exact .inl hx
  | cancel t =>
    obtain ⟨task, ht, -⟩ := hp
    have hflush := h.flushing ht
    refine h.congr ?_ fun u x hx => ?_
    · simp only [after, cancel, ht]
      cases task with
      | flushAll _ _ stage => cases stage <;> rfl
      | syncAll => rfl
      | _ => cases hflush
    · rw [after, tasks_cancel ht, Table.find?_erase] at hx
      split at hx
      · cases hx
      · exact .inl hx
  | abandon t =>
    obtain ⟨j, stay, purpose, stage, ht⟩ := hp
    exact (Bool.false_ne_true (h.flushing ht)).elim
  | markDirty j | release j | drop j | detach j =>
    obtain ⟨⟨x, hx⟩, -⟩ := hp
    cases hx.symm.trans (h.unlent j)
  | unpin => exact hm.elim
  | edit t e =>
    obtain ⟨j, stay, e₀, ht⟩ := hp
    exact (Bool.false_ne_true (h.flushing ht)).elim
  | fill t content =>
    simp only [after, fill]
    split <;> exact h.congr rfl fun _ _ => .inl
  | strike t =>
    simp only [after, strike]
    split <;> exact h.congr rfl fun _ _ => .inl

end Closing

end System

end SecondChance
