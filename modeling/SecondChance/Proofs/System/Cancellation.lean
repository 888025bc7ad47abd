import SecondChance.Proofs.System.Durability
import SecondChance.Proofs.System.UndisturbedFlushFile
import SecondChance.Proofs.System.FrameChanges
import SecondChance.Proofs.System.LatchHolding

/-!
What is left behind by an operation that is given up.

At any point an operation may be dropped by whoever asked for it, be it while it waits for a latch
or for the end of a transfer, or while it calls a page file. The frame of a transfer that was under
way is then at rest again: a page that was being loaded is gone, and a page that was being written
back is there and dirty. Nothing else about the frames has changed. The latch is given up, and
nobody goes on waiting for a transfer that nobody makes any more.
-/

namespace SecondChance

theorem Task.IsPlain.latch? {task : Task} (plain : task.IsPlain) : task.latch? = none := by
  obtain ⟨hx, hb⟩ := plain
  cases task with
  | access => cases hb
  | _ => simp [Task.latch?, hx]

/-- What becomes of a ledger when a task is given up that has a transfer under way, or none. -/
inductive Ledger.Abandons (l : Ledger) : Option Transfer → Ledger → Prop
  | nothing : l.Abandons none l
  | load {stay : Stay} {o : Occupant} {l' : Ledger} (occupant : l.occupant? stay.frame = some o)
      (loading : o.io = .busy .load) (here : stay = l.stayOf stay.frame o)
      (emptied : l.Empties [stay.frame] l') : l.Abandons (some ⟨.load, stay⟩) l'
  | writeBack {stay : Stay} {o : Occupant} (occupant : l.occupant? stay.frame = some o)
      (writing : o.io = .busy .writeBack) (here : stay = l.stayOf stay.frame o) :
      l.Abandons (some ⟨.writeBack, stay⟩)
        (l.setOccupant stay.frame { o with io := .idle, dirty := true })

namespace System

variable {s : System} {t u : TaskId} {task : Task} {x : Transfer}

/-- `s'` is `s` after a task has been given up. -/
structure Withdraws (s : System) (t : TaskId) (s' : System) : Prop where
  files : s'.files = s.files
  handles : s'.handles = s.handles
  buffers : s'.pool.buffers = s.pool.buffers
  ledger : s.pool.ledger.Abandons (s.transferOf t) s'.pool.ledger
  latch (i : FrameNo) : (s'.pool.latch i).entries = (s.pool.latch i).entries.filter (·.1 ≠ t)
  held {i : FrameNo} {u : TaskId} (other : u ≠ t) (holds : (s.pool.latch i).isHeldBy u = true) :
    (s'.pool.latch i).isHeldBy u = true
  tasks (u : TaskId) : s'.tasks.find? u = if t = u then none else s.tasks.find? u
  -- Whoever waits for the end of the transfer can go on.
  woken {u : TaskId} {w : Ticket} {x : Transfer} (moving : s.transferOf t = some x)
    (waiting : s.ticketOf u = some w) (frame : w.frame = x.stay.frame) : s'.isReady u = true

theorem cancel_of_plain (ht : s.tasks.find? t = some task) (plain : task.IsPlain) :
    s.after (.cancel t) = s.endTask t := by
  obtain ⟨hx, hb⟩ := plain
  simp only [after, cancel, ht]
  cases task with
  | fetch _ _ _ _ stage | flushFile _ _ _ stage | flushAll _ _ stage =>
    cases stage with
    | look => rfl
    | move => cases hx
  | access => cases hb
  | _ => rfl

theorem Regular.abandons (hs : s.Regular) (hx : s.transferOf t = some x) :
    s.pool.ledger.Abandons (some x) (s.pool.ledger.settle s.labels x false) := by
  obtain ⟨kind, stay⟩ := x
  obtain ⟨o, hat, -, ho, hio⟩ := hs.seat hx
  obtain ⟨p, hp, -, here⟩ := hs.escorted.seated hx
  obtain rfl := Option.some.inj (ho.symm.trans hp)
  cases kind with
  | load =>
    rw [Ledger.settle_load_failed hat hio]
    exact .load ho hio here ((Ledger.Empties.refl s.pool.ledger).snoc hs.consistent ho)
  | writeBack =>
    rw [Ledger.settle_writeBack_failed hat hio]
    exact .writeBack ho hio here

theorem Attended.entries_filter {i : FrameNo} (h : s.Attended)
    (elsewhere : ∀ mode, s.latchOf t ≠ some (i, mode)) :
    (s.pool.latch i).entries.filter (·.1 ≠ t) = (s.pool.latch i).entries := by
  refine List.filter_eq_self.2 fun (u, mode) he => ?_
  refine decide_eq_true ?_
  rintro rfl
  exact elsewhere mode (h.queues.mem_entries.1 he)

/-- Whoever waits for the end of a transfer can go on when it has been given up. -/
theorem Attended.woken (h : s.Attended) (hx : s.transferOf t = some x)
    (hi : x.stay.frame < s.pool.ledger.size) {w : Ticket} (hw : s.ticketOf u = some w)
    (frame : w.frame = x.stay.frame) {p : Pool}
    (settled : p.settled = s.pool.settled.modify x.stay.frame (· + 1)) :
    ((s.endTask t).setPool p).isReady u = true := by
  have other : t ≠ u := by
    rintro rfl
    cases (transferOf_of_ticketOf hw).symm.trans hx
  obtain ⟨task, ht, hticket⟩ := Option.bind_eq_some_iff.1 hw
  have latch : task.latch? = none := by
    cases hl : task.latch? with
    | none => rfl
    | some y => cases hticket.symm.trans (Task.ticket?_of_latch? hl)
  have called : p.isCalled w = true := by
    have seen := h.announced.seen_le hw
    have counted := Pool.settledAt_of_modify (h.settled.symm ▸ hi) settled w.frame
    rw [if_pos frame.symm] at counted
    rw [Pool.isCalled, decide_eq_true_iff]
    omega
  refine isReady_iff.2 ⟨task, ?_, ?_⟩
  · exact (Table.find?_erase ..).trans ((if_neg other).trans ht)
  · simpa [Task.isReady, hticket, latch, setPool] using called

theorem withdraws_of_plain (h : s.Attended) (ht : s.tasks.find? t = some task)
    (plain : task.IsPlain) : s.Withdraws t (s.endTask t) where
  files := rfl
  handles := rfl
  buffers := rfl
  ledger := by
    rw [transferOf_eq ht, plain.transfer?]
    exact .nothing
  latch i := by
    refine (h.entries_filter fun mode hl => ?_).symm
    rw [latchOf, ht] at hl
    cases plain.latch?.symm.trans hl
  held _ holds := holds
  tasks u := Table.find?_erase ..
  woken moving := by
    rw [transferOf_eq ht, plain.transfer?] at moving
    cases moving

theorem withdraws_of_moving (hs : s.Regular) (h : s.Attended) (hx : s.transferOf t = some x) :
    s.Withdraws t
      ((s.endTask t).setPool ((s.pool.leave x.stay.frame t).settle s.labels x false)) where
  files := rfl
  handles := rfl
  buffers := rfl
  ledger := by
    rw [hx]
    exact hs.abandons hx
  latch i := by
    refine (congrArg Latch.entries (Pool.latch_leave ..)).trans ?_
    split
    · exact Latch.entries_leave ..
    · next elsewhere =>
      refine (h.entries_filter fun mode hl => elsewhere ?_).symm
      exact congrArg Prod.fst (Option.some.inj ((latchOf_of_transferOf hx).symm.trans hl))
  held other holds := Pool.isHeldBy_leave holds other
  tasks u := Table.find?_erase ..
  woken moving waiting frame := by
    obtain rfl := Option.some.inj (hx.symm.trans moving)
    exact h.woken hx (hs.frame_lt hx) waiting frame rfl

end System

/-- Whatever an operation is about, other than using a page on loan, and however far it has come: it
can be given up, and then a page that it was loading is gone, and a page that it was writing back is
at rest and dirty. No other frame changes, and neither do the contents of the frames and of the
files. Its latch, or its place in the queue, is given up, which costs nobody else a latch, and
everybody can go on who has waited for the transfer. -/
theorem cancelled_task_withdraws {n : Nat} (hn : 0 < n) {c : Catalog} {h : History} {s : System}
    (run : ReachesShared (fun _ => True) (.new n c) h s) {t : TaskId} {task : Task}
    (ht : s.tasks.find? t = some task) (hb : task.borrower? = none) :
    s.Permits (.cancel t) ∧ s.Withdraws t (s.after (.cancel t)) := by
  refine ⟨⟨task, ht, ?_⟩, ?_⟩
  · rintro k stay purpose stage rfl
    cases hb
  · have attended := run.attended hn
    cases hx : task.transfer? with
    | none =>
      rw [System.cancel_of_plain ht ⟨hx, hb⟩]
      exact System.withdraws_of_plain attended ht ⟨hx, hb⟩
    | some x =>
      have moving : s.transferOf t = some x := (System.transferOf_eq ht).trans hx
      rw [System.cancel_of_moving moving]
      exact System.withdraws_of_moving (run.regular hn) attended moving

/-- A page is being written back, and somebody waits for its frame. -/
def smallAwaited : List Move :=
  smallChanged ++ [.begin 1 .flushAll, .resume 1 none, .begin 2 (.fetch 0 1 1), .resume 2 none]

theorem reaches_smallAwaited : Reaches (fun _ => True) .small (System.small.play smallAwaited).1
    (System.small.play smallAwaited).2 := by
  refine .play ⟨⟨rfl, Nat.zero_lt_one, rfl, nofun⟩, rfl, rfl, rfl, ⟨⟨_, rfl⟩, nofun⟩,
    ⟨⟨_, rfl⟩, nofun⟩, ⟨rfl, trivial⟩, rfl, ⟨rfl, Nat.zero_lt_one, rfl, ?_⟩, rfl, trivial⟩
    fun _ _ => trivial
  decide

/-- The page that was being written back is dirty again, and whoever waited can go on. -/
theorem cancelled_task_withdraws_small : ∃ h s, ReachesShared (fun _ => True) .small h s ∧
    s.transferOf 1 = some ⟨.writeBack, ⟨0, 0, 0, 1⟩⟩ ∧ s.isReady 2 = false ∧
    s.Permits (.cancel 1) ∧ (s.after (.cancel 1)).isReady 2 = true ∧
    ∃ o, (s.after (.cancel 1)).pool.ledger.occupant? 0 = some o ∧ o.io = .idle ∧
      o.dirty = true := by
  have moving : (System.small.play smallAwaited).2.transferOf 1 =
    some ⟨.writeBack, ⟨0, 0, 0, 1⟩⟩ := rfl
  have waiting : (System.small.play smallAwaited).2.ticketOf 2 = some ⟨0, 1⟩ := rfl
  obtain ⟨possible, withdraws⟩ := cancelled_task_withdraws Nat.zero_lt_one
    reaches_smallAwaited.shared (t := 1) rfl rfl
  refine ⟨_, _, reaches_smallAwaited.shared, moving, rfl, possible,
    withdraws.woken moving waiting rfl, ?_⟩
  have ledger := withdraws.ledger
  rw [moving] at ledger
  generalize (System.after _ (.cancel 1)).pool.ledger = l at ledger ⊢
  cases ledger with
  | writeBack => exact ⟨_, rfl, rfl, rfl⟩

end SecondChance
