import Mathlib.Data.Finset.Card
import SecondChance.Proofs.System.FrameChanges
import SecondChance.Proofs.System.Progress

/-!
Operations that have a pool to themselves.

Where nobody else is at work there is nobody to wait for. So an operation that is alone can always
go on, it finds every frame idle, and each step brings it nearer to its end. How far away the end
can be is told by its `effort`: a frame costs one look when it is clean, and two steps more when it
is dirty, because the page has to be written first and is looked at again.
-/

namespace SecondChance

namespace Ledger

variable {labels : Labels} {l l' : Ledger} {i : FrameNo} {o q : Occupant}

def dirtyFrames (l : Ledger) : Finset FrameNo :=
  (Finset.range l.size).filter fun i => (l.occupant? i).any (·.dirty)

theorem mem_dirtyFrames : i ∈ l.dirtyFrames ↔ ∃ o, l.occupant? i = some o ∧ o.dirty = true := by
  rw [dirtyFrames, Finset.mem_filter, Finset.mem_range, Option.any_eq_true]
  exact and_iff_right_of_imp fun ⟨_, ho, _⟩ => lt_size_of_occupant? ho

theorem card_dirtyFrames_le (l : Ledger) : l.dirtyFrames.card ≤ l.size :=
  (Finset.card_filter_le _ _).trans_eq (Finset.card_range _)

theorem Eased.dirtyFrames_subset (h : l.Eased labels l') : l'.dirtyFrames ⊆ l.dirtyFrames := by
  intro j hj
  obtain ⟨o, ho, hd⟩ := mem_dirtyFrames.1 hj
  obtain ⟨r, hr⟩ := h.before ho
  exact mem_dirtyFrames.2 ⟨_, hr, hd⟩

theorem dirtyFrames_setOccupant_subset (ho : l.occupant? i = some o)
    (hq : q.dirty = true → o.dirty = true) :
    (l.setOccupant i q).dirtyFrames ⊆ l.dirtyFrames := by
  intro j hj
  obtain ⟨p, hp, hd⟩ := mem_dirtyFrames.1 hj
  rcases of_occupant?_setOccupant ho hp with ⟨-, rfl, same⟩ | ⟨-, same⟩
  · exact mem_dirtyFrames.2 ⟨o, same, hq hd⟩
  · exact mem_dirtyFrames.2 ⟨p, same, hd⟩

theorem dirtyFrames_vacate_subset (ho : l.occupant? i = some o) (k : PageKey) :
    (l.vacate i k).dirtyFrames ⊆ l.dirtyFrames := by
  intro j hj
  obtain ⟨p, hp, hd⟩ := mem_dirtyFrames.1 hj
  exact mem_dirtyFrames.2 ⟨p, of_occupant?_vacate ho hp, hd⟩

theorem card_dirtyFrames_claimed (ho : l.occupant? i = some o) (hd : o.dirty = true) :
    (l.setOccupant i o.claimed).dirtyFrames.card < l.dirtyFrames.card := by
  have less := dirtyFrames_setOccupant_subset (q := o.claimed) ho fun _ => hd
  refine Finset.card_lt_card (Finset.ssubset_iff_of_subset less |>.2 ⟨i, ?_, fun hi => ?_⟩)
  · exact mem_dirtyFrames.2 ⟨o, ho, hd⟩
  · obtain ⟨p, hp, hd'⟩ := mem_dirtyFrames.1 hi
    rw [occupant?_setOccupant (lt_size_of_occupant? ho), if_pos rfl] at hp
    obtain rfl := Option.some.inj hp
    cases hd'

theorem dirtyFrames_settle_subset (l : Ledger) (x : Transfer) :
    (l.settle labels x true).dirtyFrames ⊆ l.dirtyFrames := by
  unfold settle
  split
  · exact Finset.Subset.refl _
  · next o hat =>
    have ho := (occupantAt_frame.1 hat).2
    split
    · cases x.kind <;> exact dirtyFrames_setOccupant_subset ho id
    · exact Finset.Subset.refl _

end Ledger

/-- How many steps a task is away from its end at most, if it has a pool of `n` frames to itself of
which `d` are dirty. -/
def Task.effort (n d : Nat) : Task → Nat
  | .allocate .. => 3 * d + 3
  | .fetch _ _ _ _ (.look _) => 3 * d + 2
  | .fetch _ _ _ _ (.move ⟨.load, _⟩) => 1
  | .fetch _ _ _ _ (.move ⟨.writeBack, _⟩) => 3 * d + 4
  | .expel .. => 2
  | .delete .. => 1
  | .flushFile _ i _ (.look _) => (n - i) + 3 * d + 2
  | .flushFile _ i _ (.move _) => (n - i) + 3 * d + 4
  | .syncFile .. => 1
  | .flushAll i files (.look _) => (n - i) + 3 * d + files.length + 2
  | .flushAll i files (.move _) => (n - i) + 3 * d + files.length + 4
  | .syncAll _ files => files.length + 1
  | .access _ _ _ (.loading _) => 3
  | .access _ _ _ .latching => 2
  | .access _ _ _ .inside => 1

def Turn.effort (n d : Nat) (turn : Turn) : Nat := turn.task?.elim 0 (·.effort n d)

theorem Task.effort_pos (n d : Nat) (task : Task) : 0 < task.effort n d := by
  unfold effort
  split <;> omega

theorem System.length_alsoWritten_le (labels : Labels) (files : List FileNo) (f : FileNo) :
    (System.alsoWritten labels files f).length ≤ files.length + 1 := by
  unfold alsoWritten
  split <;> simp

namespace System

variable {s : System} {t : TaskId} {task : Task} {fault : Option Fault}

theorem isOk_finishTransfer (s : System) (t : TaskId) (x : Transfer) (fault : Option Fault) :
    (s.finishTransfer t x fault).2.2.isOk = s.succeeds x fault := by
  obtain ⟨kind, stay⟩ := x
  cases kind with
  | load =>
    simp only [finishTransfer, finishLoad, succeeds]
    generalize s.files.read fault stay.file stay.page _ = p
    obtain ⟨files, r⟩ := p
    cases r <;> rfl
  | writeBack =>
    simp only [finishTransfer, finishWriteBack, succeeds]
    generalize s.files.write fault stay.file stay.page _ = p
    obtain ⟨files, r⟩ := p
    cases r <;> rfl

theorem ledger_of_finished {s' : System} {x : Transfer} {events : List Event}
    (h : s.finishTransfer t x fault = (s', events, .ok ())) :
    s'.pool.ledger = s.pool.ledger.settle s.labels x true := by
  have ledger := s.ledger_finishTransfer t x fault
  rwa [← s.isOk_finishTransfer t x fault, h] at ledger

/-- No operation is in progress but one, if any. -/
structure Alone (s : System) (t : TaskId) : Prop where
  regular : s.Regular
  attended : s.Attended
  others {u : TaskId} (hu : t ≠ u) : s.tasks.find? u = none

namespace Alone

variable (h : s.Alone t)
include h

theorem eq_of_find? {u : TaskId} (ht : s.tasks.find? u = some task) : t = u := by
  by_cases hu : t = u
  · exact hu
  · rw [h.others hu] at ht
    cases ht

theorem isReady (ht : s.tasks.find? t = some task) : s.isReady t = true := by
  refine isReady_of_not_isBlocked ht fun blocked => ?_
  -- It would wait for somebody, and there is nobody else.
  obtain ⟨u, waits⟩ := h.attended.exists_waitsFor blocked
  have busy : ∃ x, s.tasks.find? u = some x := by
    cases waits with
    | settling _ _ hx =>
      obtain ⟨x, hu, -⟩ := Option.bind_eq_some_iff.1 hx
      exact ⟨x, hu⟩
    | latch _ _ held =>
      obtain ⟨x, hu, -⟩ := isReady_iff.1 (h.attended.isUnhindered_of_isHeldBy held).1
      exact ⟨x, hu⟩
  obtain ⟨x, hu⟩ := busy
  obtain rfl := h.eq_of_find? hu
  exact h.attended.not_transGen_waitsFor t (.single waits)

theorem io_eq_idle (hx : s.transferOf t = none) {i : FrameNo} {o : Occupant}
    (ho : s.pool.ledger.occupant? i = some o) : o.io = .idle := by
  by_contra busy
  obtain ⟨u, x, hu, -⟩ := h.regular.escorted.exists_of_ne_idle ho busy
  obtain ⟨task, ht, -⟩ := Option.bind_eq_some_iff.1 hu
  obtain rfl := h.eq_of_find? ht
  cases hx.symm.trans hu

theorem standing_ne_busy (hx : s.transferOf t = none) {i : FrameNo} {o : Occupant}
    (ho : s.pool.ledger.occupant? i = some o) : o.standing ≠ .busy :=
  fun hs => (Occupant.standing_eq_busy.1 hs).2 (h.io_eq_idle hx ho)

theorem resume (ht : s.tasks.find? t = some task) (fault : Option Fault) :
    (s.after (.resume t fault)).Alone t := by
  have possible : s.Permits (.resume t fault) := h.isReady ht
  have acts := acts_after h.regular.orderly h.regular.consistent.size_pos possible
  refine ⟨acts.regular h.regular, h.attended.move h.regular possible, fun hu => ?_⟩
  rw [find?_after_of_ne h.regular.consistent.size_pos possible, h.others hu]
  exact fun he => hu (Option.some.inj he)

end Alone

/-! ### How far it is to the end -/

/-- A step has brought the task nearer to its end. -/
def Nearer (s : System) (task : Task) (r : System × List Event × Turn) : Prop :=
  r.2.2.effort s.pool.ledger.size r.1.pool.ledger.dirtyFrames.card <
    task.effort s.pool.ledger.size s.pool.ledger.dirtyFrames.card

theorem nearer_of_end (s s' : System) (events : List Event) (r : Result) :
    s.Nearer task (s', events, .ends r) := Task.effort_pos ..

theorem card_dirtyFrames_of_finished {s' : System} {x : Transfer} {events : List Event}
    (h : s.finishTransfer t x fault = (s', events, .ok ())) :
    s'.pool.ledger.dirtyFrames.card ≤ s.pool.ledger.dirtyFrames.card := by
  rw [ledger_of_finished h]
  exact Finset.card_le_card (Ledger.dirtyFrames_settle_subset ..)

theorem nearer_moveForFetch {file : FileNo} {page : PageNo} {k : HandleNo} {w : Option Stay}
    (x : Transfer) :
    s.Nearer (.fetch file page k w (.move x)) (s.moveForFetch t file page k x fault) := by
  obtain ⟨s', events, r, hr⟩ : ∃ s' events r, s.finishTransfer t x fault = (s', events, r) :=
    ⟨_, _, _, rfl⟩
  obtain ⟨kind, stay⟩ := x
  simp only [moveForFetch, hr]
  cases r with
  | error e => exact nearer_of_end ..
  | ok =>
    cases kind with
    | load => exact nearer_of_end ..
    | writeBack =>
      have less := card_dirtyFrames_of_finished hr
      show 3 * s'.pool.ledger.dirtyFrames.card + 2 < 3 * s.pool.ledger.dirtyFrames.card + 4
      omega

namespace Alone

variable (h : s.Alone t)
include h

theorem nearer_lookForFetch {file : FileNo} {page : PageNo} {k : HandleNo} {w : Option Stay}
    {look : Option Ticket} (ht : s.tasks.find? t = some (.fetch file page k w (.look look))) :
    s.Nearer (.fetch file page k w (.look look)) (s.lookForFetch t file page k w) := by
  obtain ⟨l, r, ha⟩ : ∃ l r, s.pool.ledger.acquire s.labels file page w = (l, r) := ⟨_, _, rfl⟩
  simp only [lookForFetch, ha]
  cases Ledger.acquire_cases h.regular.consistent.size_pos ha with dsimp only
  | hit | astray | exhausted => exact nearer_of_end ..
  | load =>
    show 1 < 3 * s.pool.ledger.dirtyFrames.card + 2
    omega
  | @writeBack m i o hk hm ho hs hd =>
    have less := Ledger.card_dirtyFrames_claimed ho hd
    have eased := Finset.card_le_card hm.dirtyFrames_subset
    show 3 * (m.setOccupant i o.claimed).dirtyFrames.card + 4 <
      3 * s.pool.ledger.dirtyFrames.card + 2
    omega
  | wait hk hm hb =>
    obtain ⟨o, ho, hs⟩ := hb
    obtain ⟨r, hr⟩ := hm.before ho
    exact (h.standing_ne_busy (transferOf_eq ht) hr hs).elim

theorem nearer_lookForExpel {file : FileNo} {page : PageNo} {key : PageKey} {look : Option Ticket}
    (ht : s.tasks.find? t = some (.expel file page key look)) :
    s.Nearer (.expel file page key look) (s.lookForExpel file page key) := by
  obtain ⟨l, r, ha⟩ : ∃ l r, s.pool.ledger.expel key (s.name file) page = (l, r) := ⟨_, _, rfl⟩
  simp only [lookForExpel, ha]
  cases Ledger.expel_cases ha with dsimp only
  | astray | pinned => exact nearer_of_end ..
  | absent | emptied => exact Nat.one_lt_two
  | wait hk ho hs => exact (h.standing_ne_busy (transferOf_eq ht) ho hs).elim

theorem nearer_lookForFlushFile {file : FileNo} {i w : Nat} {look : Option Ticket}
    (ht : s.tasks.find? t = some (.flushFile file i w (.look look))) :
    s.Nearer (.flushFile file i w (.look look)) (s.lookForFlushFile t file i w) := by
  by_cases hi : i < s.pool.size
  · have inside : i < s.pool.ledger.size := hi
    obtain ⟨l, r, ha⟩ : ∃ l r,
        s.pool.ledger.flushFileAt s.labels i (s.labels file).id = (l, r) := ⟨_, _, rfl⟩
    simp only [lookForFlushFile, if_pos hi, ha]
    cases Ledger.flushFileAt_cases ha with dsimp only
    | astray | pinned => exact nearer_of_end ..
    | skip =>
      show s.pool.ledger.size - (i + 1) + 3 * s.pool.ledger.dirtyFrames.card + 2 <
        s.pool.ledger.size - i + 3 * s.pool.ledger.dirtyFrames.card + 2
      omega
    | @emptied o ho =>
      have less := Finset.card_le_card (Ledger.dirtyFrames_vacate_subset ho (o.key s.labels))
      show s.pool.ledger.size - (i + 1) +
          3 * (s.pool.ledger.vacate i (o.key s.labels)).dirtyFrames.card + 2 <
        s.pool.ledger.size - i + 3 * s.pool.ledger.dirtyFrames.card + 2
      omega
    | wait ho hid hs => exact (h.standing_ne_busy (transferOf_eq ht) ho hs).elim
    | @claimed o ho hid hs hd =>
      have less := Ledger.card_dirtyFrames_claimed ho hd
      show s.pool.ledger.size - i +
          3 * (s.pool.ledger.setOccupant i o.claimed).dirtyFrames.card + 4 <
        s.pool.ledger.size - i + 3 * s.pool.ledger.dirtyFrames.card + 2
      omega
  · simp only [lookForFlushFile, if_neg hi]
    split
    · exact nearer_of_end ..
    · show 1 < _ + 2
      omega

theorem nearer_lookForFlushAll {i : Nat} {files : List FileNo} {look : Option Ticket}
    (ht : s.tasks.find? t = some (.flushAll i files (.look look))) :
    s.Nearer (.flushAll i files (.look look)) (s.lookForFlushAll t i files) := by
  by_cases hi : i < s.pool.size
  · have inside : i < s.pool.ledger.size := hi
    obtain ⟨l, r, ha⟩ : ∃ l r, s.pool.ledger.flushAllAt i = (l, r) := ⟨_, _, rfl⟩
    simp only [lookForFlushAll, if_pos hi, ha]
    cases Ledger.flushAllAt_cases ha with dsimp only
    | skip =>
      show s.pool.ledger.size - (i + 1) + 3 * s.pool.ledger.dirtyFrames.card + files.length + 2 <
        s.pool.ledger.size - i + 3 * s.pool.ledger.dirtyFrames.card + files.length + 2
      omega
    | wait ho hio =>
      have idle := h.io_eq_idle (transferOf_eq ht) ho
      rw [hio] at idle
      cases idle
    | @claimed o ho hio hd =>
      have less := Ledger.card_dirtyFrames_claimed ho hd
      show s.pool.ledger.size - i +
          3 * (s.pool.ledger.setOccupant i o.claimed).dirtyFrames.card + files.length + 4 <
        s.pool.ledger.size - i + 3 * s.pool.ledger.dirtyFrames.card + files.length + 2
      omega
  · simp only [lookForFlushAll, if_neg hi]
    show files.length + 1 < _ + files.length + 2
    omega

theorem nearer_enter {k : HandleNo} {stay : Stay} {purpose : Access}
    (ht : s.tasks.find? t = some (.access k stay purpose .latching)) :
    s.Nearer (.access k stay purpose .latching) (s.enter t k stay purpose) := by
  simp only [enter]
  split
  · exact nearer_of_end ..
  · next hl =>
    rcases s.pool.ledger.stillLoading_cases stay with he | ⟨o, hat, -, he⟩
    · cases hl.symm.trans he
    · have idle := h.io_eq_idle (transferOf_eq ht) (Ledger.occupantAt_frame.1 hat).2
      rw [he, idle] at hl
      cases hl
  · exact Nat.one_lt_two

/-- Every step brings the task nearer to its end. -/
theorem nearer_advance (ht : s.tasks.find? t = some task) (fault : Option Fault) :
    s.Nearer task (s.advance t fault task) := by
  cases task with
  | allocate file k =>
    simp only [advance]
    split
    · exact nearer_of_end ..
    · exact Nat.lt_succ_self _
  | fetch file page k w stage =>
    cases stage with
    | look => exact h.nearer_lookForFetch ht
    | move x => exact nearer_moveForFetch x
  | expel => exact h.nearer_lookForExpel ht
  | delete | syncFile =>
    simp only [advance]
    split <;> exact nearer_of_end ..
  | flushFile file i w stage =>
    cases stage with
    | look => exact h.nearer_lookForFlushFile ht
    | move x =>
      simp only [advance]
      split
      · exact nearer_of_end ..
      · next s' events hr =>
        have less := card_dirtyFrames_of_finished hr
        show s.pool.ledger.size - i + 3 * s'.pool.ledger.dirtyFrames.card + 2 <
          s.pool.ledger.size - i + 3 * s.pool.ledger.dirtyFrames.card + 4
        omega
  | flushAll i files stage =>
    cases stage with
    | look => exact h.nearer_lookForFlushAll ht
    | move x =>
      simp only [advance]
      split
      · exact nearer_of_end ..
      · next s' events hr =>
        have less := card_dirtyFrames_of_finished hr
        have more := length_alsoWritten_le s'.labels files x.stay.file
        show s.pool.ledger.size - (i + 1) + 3 * s'.pool.ledger.dirtyFrames.card +
            (alsoWritten s'.labels files x.stay.file).length + 2 <
          s.pool.ledger.size - i + 3 * s.pool.ledger.dirtyFrames.card + files.length + 4
        omega
  | syncAll n files =>
    cases files with
    | nil => exact nearer_of_end ..
    | cons =>
      simp only [advance]
      split
      · exact nearer_of_end ..
      · exact Nat.lt_succ_self _
  | access k stay purpose stage =>
    cases stage with
    | latching => exact h.nearer_enter ht
    | loading => exact Nat.lt_succ_self _
    | inside => cases purpose <;> exact nearer_of_end ..

end Alone

/-! ### Going on to the end -/

/-- Where a turn leads: to a task in progress for which `I` holds, or to a result for which `Q`
holds. -/
def Leads (I : Task → System → Prop) (Q : Result → System → Prop) (s : System) : Turn → Prop
  | .goesOn task => I task s
  | .ends r => Q r s

/-- If every step of a lone task keeps `I` or ends in a result with `Q`, then the task ends with `Q`
within as many steps as its effort demands. -/
theorem Alone.run {I : Task → System → Prop} {Q : Result → System → Prop}
    (step : ∀ {s : System} {task : Task}, s.Alone t → s.tasks.find? t = some task → I task s →
      Leads I Q (s.after (.resume t none)) (s.advance t none task).2.2)
    {k : Nat} (h : s.Alone t) (ht : s.tasks.find? t = some task) (hI : I task s)
    (hk : task.effort s.pool.ledger.size s.pool.ledger.dirtyFrames.card ≤ k) :
    ∃ r, (s.run k t).2.2 = some r ∧ Q r (s.run k t).1 ∧ (s.run k t).1.Alone t ∧
      (s.run k t).1.tasks.find? t = none := by
  induction k generalizing s task with
  | zero => exact (Nat.not_lt.2 hk (Task.effort_pos ..)).elim
  | succ k ih =>
    have leads := step h ht hI
    have nearer := h.nearer_advance ht none
    have alone := h.resume ht none
    have ready := h.isReady ht
    have possible : s.Permits (.resume t none) := ready
    have size := (acts_after h.regular.orderly h.regular.consistent.size_pos possible).size
    have after := find?_after_resume ht none
    have ledger := ledger_resume ht none
    have result : (s.resume t none).2.2 = _ := result_resume ht
    obtain ⟨s', events, r, hr⟩ : ∃ s' events r, s.resume t none = (s', events, r) := ⟨_, _, _, rfl⟩
    obtain rfl : s.after (.resume t none) = s' := congrArg Prod.fst hr
    rw [hr] at result
    rw [Nearer, ← ledger] at nearer
    simp only [System.run, if_pos ready, hr]
    generalize (s.advance t none task).2.2 = turn at *
    cases turn with
    | ends r =>
      subst result
      exact ⟨r, rfl, leads, alone, after⟩
    | goesOn task' =>
      subst result
      refine ih alone after leads ?_
      rw [size]
      exact Nat.le_of_lt_succ (Nat.lt_of_lt_of_le nearer hk)

theorem ledger_begin (s : System) (t : TaskId) (op : Operation) :
    (s.begin t op).pool.ledger = s.pool.ledger := by
  cases op <;> rfl

/-- Every operation that has the pool to itself comes to its end within `ampleSteps`. -/
theorem effort_firstTask_le (s : System) (labels : Labels) (op : Operation) :
    (firstTask labels op).effort s.pool.ledger.size s.pool.ledger.dirtyFrames.card ≤
      s.ampleSteps := by
  have few := s.pool.ledger.card_dirtyFrames_le
  rw [ampleSteps, Pool.size]
  cases op <;> simp only [firstTask, Task.effort, Nat.sub_zero, List.length_nil] <;> omega

end System

end SecondChance
