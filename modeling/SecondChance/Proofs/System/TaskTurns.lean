import SecondChance.Proofs.System.MoveDecomposition

/-!
Taking turns.

A move is the turn of one task at most, and as far as waiting is concerned that task does one of
four things. It goes on with the latch that it had, or without one; it asks for a latch; it gives
one up; or it ends its transfer, which gives up the latch and calls everybody who waits for the end
of it. Whoever draws a ticket draws it for a frame that is busy.
-/

namespace SecondChance

def Turn.task? : Turn → Option Task
  | .goesOn task => some task
  | .ends _ => none

def Turn.result? : Turn → Option Result
  | .goesOn _ => none
  | .ends result => some result

/-- The task whose turn a move is. -/
def Move.turn? : Move → Option TaskId
  | .begin t _ | .resume t _ | .cancel t | .abandon t => some t
  | _ => none

namespace Task

variable {task : Task} {x : Transfer}

theorem latch?_of_transfer? (hx : task.transfer? = some x) :
    task.latch? = some (x.stay.frame, x.mode) := by
  cases task with
  | access => cases hx
  | _ => simp [latch?, hx]

theorem call?_of_transfer? (hx : task.transfer? = some x) :
    task.call? = some (x.stay.file, x.call) := by
  cases task with
  | fetch | flushFile | flushAll => simp [call?, hx]
  | _ => cases hx

theorem ticket?_of_latch? {y : FrameNo × Latch.Mode} (hy : task.latch? = some y) :
    task.ticket? = none := by
  cases task with
  | fetch _ _ _ _ stage | flushFile _ _ _ stage | flushAll _ _ stage =>
    cases stage with
    | look => cases hy
    | move => rfl
  | expel => cases hy
  | access _ _ _ stage =>
    cases stage with
    | loading => cases hy
    | _ => rfl
  | _ => rfl

end Task

/-- Whoever waits for the end of a transfer has drawn the ticket just now, for a frame that is
busy. -/
def Pool.Waits (p : Pool) (task : Option Task) : Prop :=
  ∀ w, task.bind (·.ticket?) = some w →
    w = p.ticket w.frame ∧ ∃ o, p.ledger.occupant? w.frame = some o ∧ o.io ≠ .idle

/-- What a task does in its turn, as far as waiting is concerned: `old` is the task before, `new`
the task after it. -/
inductive Paces (p p' : Pool) (t : TaskId) : (old new : Option Task) → Prop
  | goesOn {old new : Option Task} (hx : old.bind (·.transfer?) = none)
      (hl : new.bind (·.latch?) = old.bind (·.latch?)) (hp : p'.latches = p.latches)
      (hs : p'.settled = p.settled) (hw : p'.Waits new) : Paces p p' t old new
  | asks {old new : Option Task} {i : FrameNo} {mode : Latch.Mode}
      (hl : old.bind (·.latch?) = none) (hl' : new.bind (·.latch?) = some (i, mode))
      (hp : p'.latches = (p.request i t mode).latches) (hs : p'.settled = p.settled) :
      Paces p p' t old new
  | leaves {old new : Option Task} {i : FrameNo} {mode : Latch.Mode}
      (hx : old.bind (·.transfer?) = none) (hl : old.bind (·.latch?) = some (i, mode))
      (hl' : new.bind (·.latch?) = none) (hp : p'.latches = (p.leave i t).latches)
      (hs : p'.settled = p.settled) (hw : p'.Waits new) : Paces p p' t old new
  | settles {old new : Option Task} {x : Transfer} (hx : old.bind (·.transfer?) = some x)
      (hl' : new.bind (·.latch?) = none) (hp : p'.latches = (p.leave x.stay.frame t).latches)
      (hs : p'.settled = p.settled.modify x.stay.frame (· + 1))
      (hw : new.bind (·.ticket?) = none) : Paces p p' t old new

namespace System

variable {s s' : System} {t u : TaskId} {fault : Option Fault}

theorem find?_turnTo (s : System) (t : TaskId) (turn : Turn) (u : TaskId) :
    (s.turnTo t turn).tasks.find? u = if t = u then turn.task? else s.tasks.find? u := by
  cases turn with
  | goesOn => exact Table.find?_insert ..
  | ends => exact Table.find?_erase ..

theorem find?_after_resume {task : Task} (ht : s.tasks.find? t = some task)
    (fault : Option Fault) :
    (s.after (.resume t fault)).tasks.find? t = (s.advance t fault task).2.2.task? := by
  rw [after, resume_fst ht, find?_turnTo, if_pos rfl]

theorem result_resume {task : Task} (ht : s.tasks.find? t = some task) :
    (s.resume t fault).2.2 = (s.advance t fault task).2.2.result? := by
  simp only [resume, ht]
  generalize s.advance t fault task = p
  obtain ⟨s', events, turn⟩ := p
  cases turn <;> rfl

theorem pool_turnTo (s : System) (t : TaskId) (turn : Turn) : (s.turnTo t turn).pool = s.pool := by
  cases turn <;> rfl

theorem finishTransfer_eq (s : System) (t : TaskId) (x : Transfer) (fault : Option Fault) :
    (s.finishTransfer t x fault).1.tasks = s.tasks ∧
    (s.finishTransfer t x fault).1.pool.latches = (s.pool.leave x.stay.frame t).latches ∧
    (s.finishTransfer t x fault).1.pool.settled = s.pool.settled.modify x.stay.frame (· + 1) := by
  obtain ⟨kind, stay⟩ := x
  cases kind with simp only [finishTransfer]
  | load =>
    simp only [finishLoad]
    split <;> exact ⟨rfl, rfl, rfl⟩
  | writeBack =>
    simp only [finishWriteBack]
    split <;> exact ⟨rfl, rfl, rfl⟩

/-- What a step of a task comes to, before the table of tasks is told where it has left the task. -/
structure Steps (s : System) (t : TaskId) (task : Task) (r : System × List Event × Turn) : Prop where
  tasks : r.1.tasks = s.tasks
  paces : Paces s.pool r.1.pool t (some task) r.2.2.task?

theorem waits_of_none {p : Pool} {task : Option Task} (h : task.bind (·.ticket?) = none) :
    p.Waits task := by
  intro w hw
  rw [h] at hw
  cases hw

theorem waits_of_ticket {p : Pool} {task : Option Task} {i : FrameNo} {o : Occupant}
    (h : task.bind (·.ticket?) = some (p.ticket i)) (ho : p.ledger.occupant? i = some o)
    (hio : o.io ≠ .idle) : p.Waits task := by
  intro w hw
  obtain rfl := Option.some.inj (h.symm.trans hw)
  exact ⟨rfl, o, ho, hio⟩

theorem steps_lookForFetch {file : FileNo} {page : PageNo} {h : HandleNo} {w : Option Stay}
    (hn : 0 < s.pool.ledger.size) (look : Option Ticket) :
    s.Steps t (.fetch file page h w (.look look)) (s.lookForFetch t file page h w) := by
  obtain ⟨l, r, ha⟩ : ∃ l r, s.pool.ledger.acquire s.labels file page w = (l, r) := ⟨_, _, rfl⟩
  simp only [lookForFetch, ha]
  cases Ledger.acquire_cases hn ha with dsimp only
  | hit | astray | exhausted => exact ⟨rfl, .goesOn rfl rfl rfl rfl (waits_of_none rfl)⟩
  | load | writeBack => exact ⟨rfl, .asks rfl rfl rfl rfl⟩
  | wait hk hm hb =>
    obtain ⟨o, ho, hs⟩ := hb
    have busy := (Occupant.standing_eq_busy.1 hs).2
    exact ⟨rfl, .goesOn rfl rfl rfl rfl (waits_of_ticket rfl ho busy)⟩

theorem steps_move {task : Task} {x : Transfer} (hx : task.transfer? = some x)
    {r : System × List Event × Turn} (ht : r.1.tasks = (s.finishTransfer t x fault).1.tasks)
    (hl : r.1.pool.latches = (s.finishTransfer t x fault).1.pool.latches)
    (hs : r.1.pool.settled = (s.finishTransfer t x fault).1.pool.settled)
    (hl' : r.2.2.task?.bind (·.latch?) = none) (hw : r.2.2.task?.bind (·.ticket?) = none) :
    s.Steps t task r := by
  obtain ⟨tasks, latches, settled⟩ := s.finishTransfer_eq t x fault
  exact ⟨ht.trans tasks, .settles hx hl' (hl.trans latches) (hs.trans settled) hw⟩

theorem steps_moveForFetch {file : FileNo} {page : PageNo} {h : HandleNo} {w : Option Stay}
    (x : Transfer) :
    s.Steps t (.fetch file page h w (.move x)) (s.moveForFetch t file page h x fault) := by
  obtain ⟨s₁, events, r, hr⟩ : ∃ s₁ events r, s.finishTransfer t x fault = (s₁, events, r) :=
    ⟨_, _, _, rfl⟩
  obtain ⟨kind, stay⟩ := x
  cases r with
  | error e =>
    simp only [moveForFetch, hr]
    exact steps_move rfl (by rw [hr]) (by rw [hr]) (by rw [hr]) rfl rfl
  | ok =>
    cases kind with
    | load =>
      simp only [moveForFetch, hr]
      exact steps_move rfl (by rw [hr]; rfl) (by rw [hr]; rfl) (by rw [hr]; rfl) rfl rfl
    | writeBack =>
      simp only [moveForFetch, hr]
      exact steps_move rfl (by rw [hr]) (by rw [hr]) (by rw [hr]) rfl rfl

theorem steps_lookForExpel {file : FileNo} {page : PageNo} {key : PageKey} (look : Option Ticket) :
    s.Steps t (.expel file page key look) (s.lookForExpel file page key) := by
  obtain ⟨l, r, ha⟩ : ∃ l r, s.pool.ledger.expel key (s.name file) page = (l, r) := ⟨_, _, rfl⟩
  simp only [lookForExpel, ha]
  cases Ledger.expel_cases ha with dsimp only
  | wait hk ho hb =>
    have busy := (Occupant.standing_eq_busy.1 hb).2
    exact ⟨rfl, .goesOn rfl rfl rfl rfl (waits_of_ticket rfl ho busy)⟩
  | _ => exact ⟨rfl, .goesOn rfl rfl rfl rfl (waits_of_none rfl)⟩

theorem steps_lookForFlushFile {file : FileNo} {frame : FrameNo} {written : Nat}
    (look : Option Ticket) : s.Steps t (.flushFile file frame written (.look look))
      (s.lookForFlushFile t file frame written) := by
  by_cases hf : frame < s.pool.size
  · obtain ⟨l, r, ha⟩ : ∃ l r,
        s.pool.ledger.flushFileAt s.labels frame (s.labels file).id = (l, r) := ⟨_, _, rfl⟩
    simp only [lookForFlushFile, if_pos hf, ha]
    cases Ledger.flushFileAt_cases ha with dsimp only
    | wait ho hid hs =>
      have busy := (Occupant.standing_eq_busy.1 hs).2
      exact ⟨rfl, .goesOn rfl rfl rfl rfl (waits_of_ticket rfl ho busy)⟩
    | claimed => exact ⟨rfl, .asks rfl rfl rfl rfl⟩
    | _ => exact ⟨rfl, .goesOn rfl rfl rfl rfl (waits_of_none rfl)⟩
  · simp only [lookForFlushFile, if_neg hf]
    split <;> exact ⟨rfl, .goesOn rfl rfl rfl rfl (waits_of_none rfl)⟩

theorem steps_lookForFlushAll {frame : FrameNo} {files : List FileNo} (look : Option Ticket) :
    s.Steps t (.flushAll frame files (.look look)) (s.lookForFlushAll t frame files) := by
  by_cases hf : frame < s.pool.size
  · obtain ⟨l, r, ha⟩ : ∃ l r, s.pool.ledger.flushAllAt frame = (l, r) := ⟨_, _, rfl⟩
    simp only [lookForFlushAll, if_pos hf, ha]
    cases Ledger.flushAllAt_cases ha with dsimp only
    | skip => exact ⟨rfl, .goesOn rfl rfl rfl rfl (waits_of_none rfl)⟩
    | @wait o ho hio =>
      have busy : o.io ≠ .idle := by simp [hio]
      exact ⟨rfl, .goesOn rfl rfl rfl rfl (waits_of_ticket rfl ho busy)⟩
    | claimed => exact ⟨rfl, .asks rfl rfl rfl rfl⟩
  · simp only [lookForFlushAll, if_neg hf]
    exact ⟨rfl, .goesOn rfl rfl rfl rfl (waits_of_none rfl)⟩

theorem steps_enter {h : HandleNo} {stay : Stay} {purpose : Access} :
    s.Steps t (.access h stay purpose .latching) (s.enter t h stay purpose) := by
  simp only [enter]
  split
  · exact ⟨rfl, .leaves rfl rfl rfl rfl rfl (waits_of_none rfl)⟩
  · next hl =>
    rcases s.pool.ledger.stillLoading_cases stay with he | ⟨o, hat, -, he⟩
    · cases hl.symm.trans he
    · have hio : o.io = .busy .load := by simpa using Except.ok.inj (he.symm.trans hl)
      have ho := (Ledger.occupantAt_frame.1 hat).2
      have busy : o.io ≠ .idle := by simp [hio]
      exact ⟨rfl, .leaves rfl rfl rfl rfl rfl (waits_of_ticket rfl ho busy)⟩
  · cases purpose <;> exact ⟨rfl, .goesOn rfl rfl rfl rfl (waits_of_none rfl)⟩

theorem steps_use {h : HandleNo} {stay : Stay} {purpose : Access} :
    s.Steps t (.access h stay purpose .inside) (s.use t stay purpose) := by
  cases purpose <;> exact ⟨rfl, .leaves rfl rfl rfl rfl rfl (waits_of_none rfl)⟩

/-- Every step of a task is one of the ways to take a turn. -/
theorem steps_advance (hn : 0 < s.pool.ledger.size) (task : Task) :
    s.Steps t task (s.advance t fault task) := by
  -- A step that leaves the pool alone, of a task that waits for nothing before or after.
  have quiet {task : Task} {r : System × List Event × Turn} (hx : task.transfer? = none)
      (hl : task.latch? = none) (htasks : r.1.tasks = s.tasks) (hpool : r.1.pool = s.pool)
      (hl' : r.2.2.task?.bind (·.latch?) = none) (hw : r.2.2.task?.bind (·.ticket?) = none) :
      s.Steps t task r :=
    ⟨htasks, .goesOn hx (hl'.trans hl.symm) (by rw [hpool]) (by rw [hpool]) (waits_of_none hw)⟩
  cases task with
  | allocate | delete | syncFile =>
    simp only [advance]
    split <;> exact quiet rfl rfl rfl rfl rfl rfl
  | fetch _ _ _ _ stage =>
    cases stage with
    | look look => exact steps_lookForFetch hn look
    | move x => exact steps_moveForFetch x
  | expel _ _ _ look => exact steps_lookForExpel look
  | flushFile file frame written stage =>
    cases stage with
    | look look => exact steps_lookForFlushFile look
    | move x =>
      simp only [advance]
      split
      · next hr => exact steps_move rfl (by rw [hr]) (by rw [hr]) (by rw [hr]) rfl rfl
      · next hr => exact steps_move rfl (by rw [hr]) (by rw [hr]) (by rw [hr]) rfl rfl
  | flushAll frame files stage =>
    cases stage with
    | look look => exact steps_lookForFlushAll look
    | move x =>
      simp only [advance]
      split
      · next hr => exact steps_move rfl (by rw [hr]) (by rw [hr]) (by rw [hr]) rfl rfl
      · next hr => exact steps_move rfl (by rw [hr]) (by rw [hr]) (by rw [hr]) rfl rfl
  | syncAll n files =>
    cases files with
    | nil => exact quiet rfl rfl rfl rfl rfl rfl
    | cons =>
      simp only [advance]
      split <;> exact quiet rfl rfl rfl rfl rfl rfl
  | access _ _ _ stage =>
    cases stage with
    | latching => exact steps_enter
    | loading => exact ⟨rfl, .asks rfl rfl rfl rfl⟩
    | inside => exact steps_use

/-! ### Moves -/

/-- What a move does to those who wait. -/
inductive Pace (s s' : System) : Option TaskId → Prop
  | still (ht : s'.tasks = s.tasks) (hl : s'.pool.latches = s.pool.latches)
      (hs : s'.pool.settled = s.pool.settled) : Pace s s' none
  | turn {t : TaskId} (ho : ∀ u, t ≠ u → s'.tasks.find? u = s.tasks.find? u)
      (hp : Paces s.pool s'.pool t (s.tasks.find? t) (s'.tasks.find? t)) : Pace s s' (some t)

theorem release_eq (s : System) (h : HandleNo) :
    (s.release h).1.tasks = s.tasks ∧ (s.release h).1.pool.latches = s.pool.latches ∧
      (s.release h).1.pool.settled = s.pool.settled := by
  unfold release
  split <;> exact ⟨rfl, rfl, rfl⟩

theorem tasks_begin (s : System) (t : TaskId) (op : Operation) :
    (s.begin t op).tasks = s.tasks.insert t (firstTask s.labels op) := by
  cases op <;> rfl

theorem pace_begin {op : Operation} (ht : s.tasks.find? t = none) :
    Pace s (s.begin t op) (some t) := by
  refine .turn (fun u hu => ?_) ?_
  · rw [tasks_begin, Table.find?_insert, if_neg hu]
  · rw [ht, tasks_begin, Table.find?_insert_self]
    cases op with
    | access => exact .asks rfl rfl rfl rfl
    | _ => exact .goesOn rfl rfl rfl rfl (waits_of_none rfl)

theorem pace_resume {task : Task} (hn : 0 < s.pool.ledger.size)
    (ht : s.tasks.find? t = some task) : Pace s (s.resume t fault).1 (some t) := by
  obtain ⟨tasks, paces⟩ : s.Steps t task (s.advance t fault task) := steps_advance hn task
  rw [resume_fst ht]
  refine .turn (fun u hu => ?_) ?_
  · rw [find?_turnTo, if_neg hu, tasks]
  · rw [find?_turnTo, if_pos rfl, pool_turnTo, ht]
    exact paces

theorem pace_erase (hs : s'.tasks = s.tasks.erase t)
    (hp : Paces s.pool s'.pool t (s.tasks.find? t) none) : Pace s s' (some t) := by
  refine .turn (fun u hu => ?_) ?_
  · rw [hs, Table.find?_erase, if_neg hu]
  · rw [hs, Table.find?_erase_self]
    exact hp

theorem drop_eq (s : System) (h : HandleNo) :
    (s.drop h).1.tasks = s.tasks ∧ (s.drop h).1.pool.latches = s.pool.latches ∧
      (s.drop h).1.pool.settled = s.pool.settled := by
  rw [drop_fst]
  exact s.release_eq h

theorem tasks_cancel {task : Task} (ht : s.tasks.find? t = some task) :
    (s.cancel t).1.tasks = s.tasks.erase t := by
  simp only [cancel, ht]
  cases task with
  | fetch _ _ _ _ stage | flushFile _ _ _ stage | flushAll _ _ stage => cases stage <;> rfl
  | access h _ _ stage => cases stage <;> exact (drop_eq _ h).1
  | _ => rfl

theorem find?_after_cancel {task : Task} (ht : s.tasks.find? t = some task) :
    (s.after (.cancel t)).tasks.find? t = none := by
  rw [after, tasks_cancel ht]
  exact Table.find?_erase_self ..

theorem pace_cancel {task : Task} (ht : s.tasks.find? t = some task) :
    Pace s (s.cancel t).1 (some t) := by
  refine pace_erase (tasks_cancel ht) ?_
  simp only [cancel, ht]
  cases task with
  | fetch _ _ _ _ stage | flushFile _ _ _ stage | flushAll _ _ stage =>
    cases stage with
    | look => exact .goesOn rfl rfl rfl rfl (waits_of_none rfl)
    | move => exact .settles rfl rfl rfl rfl rfl
  | access h stay purpose stage =>
    -- The handle is given back as well.
    cases stage with
    | latching | inside =>
      obtain ⟨-, hl, hs⟩ := drop_eq _ h
      exact .leaves rfl rfl rfl hl hs (waits_of_none rfl)
    | loading =>
      obtain ⟨-, hl, hs⟩ := drop_eq _ h
      exact .goesOn rfl rfl hl hs (waits_of_none rfl)
  | _ => exact .goesOn rfl rfl rfl rfl (waits_of_none rfl)

theorem pace_abandon {h : HandleNo} {stay : Stay} {purpose : Access} {stage : AccessStage}
    (ht : s.tasks.find? t = some (.access h stay purpose stage)) :
    Pace s (s.abandon t) (some t) := by
  simp only [abandon, ht]
  refine pace_erase rfl ?_
  rw [ht]
  cases stage with
  | latching | inside => exact .leaves rfl rfl rfl rfl rfl (waits_of_none rfl)
  | loading => exact .goesOn rfl rfl rfl rfl (waits_of_none rfl)

/-- Every move is somebody's turn, or it is nobody's and none of those who wait notices it. -/
theorem pace_after {m : Move} (hn : 0 < s.pool.ledger.size) (hp : s.Permits m) :
    Pace s (s.after m) m.turn? := by
  cases m with
  | begin t op => exact pace_begin hp.1
  | resume t fault =>
    obtain ⟨task, ht, -⟩ := isReady_iff.1 hp
    exact pace_resume hn ht
  | cancel t =>
    obtain ⟨task, ht, -⟩ := hp
    exact pace_cancel ht
  | abandon t =>
    obtain ⟨h, stay, purpose, stage, ht⟩ := hp
    exact pace_abandon ht
  | markDirty | detach => exact .still rfl rfl rfl
  | release h =>
    obtain ⟨ht, hl, hs⟩ := s.release_eq h
    exact .still ht hl hs
  | drop h =>
    obtain ⟨ht, hl, hs⟩ := s.drop_eq h
    exact .still ht hl hs
  | unpin file page dirty =>
    simp only [after, System.unpin]
    split <;> exact .still rfl rfl rfl
  | edit t e =>
    simp only [after, edit]
    split <;> exact .still rfl rfl rfl
  | fill t content =>
    simp only [after, fill]
    split <;> exact .still rfl rfl rfl
  | strike t =>
    simp only [after, strike]
    split <;> exact .still rfl rfl rfl

theorem find?_after_of_ne {m : Move} (hn : 0 < s.pool.ledger.size) (hp : s.Permits m)
    (hu : m.turn? ≠ some u) : (s.after m).tasks.find? u = s.tasks.find? u := by
  have pace := pace_after hn hp
  cases ht : m.turn? with
  | none =>
    rw [ht] at pace
    cases pace with
    | still htasks => rw [htasks]
  | some t =>
    rw [ht] at pace
    cases pace with
    | turn others =>
      refine others u ?_
      rintro rfl
      exact hu ht

theorem find?_after_of_none {m : Move} (hn : 0 < s.pool.ledger.size) (hp : s.Permits m)
    (hb : ∀ op, m ≠ .begin t op) (ht : s.tasks.find? t = none) :
    (s.after m).tasks.find? t = none := by
  rw [find?_after_of_ne hn hp, ht]
  intro hturn
  cases m with
  | begin u op =>
    obtain rfl := Option.some.inj hturn
    exact hb op rfl
  | resume u fault =>
    obtain rfl := Option.some.inj hturn
    obtain ⟨task, ht', -⟩ := isReady_iff.1 hp
    exact nomatch ht.symm.trans ht'
  | cancel u =>
    obtain rfl := Option.some.inj hturn
    obtain ⟨task, ht', -⟩ := hp
    exact nomatch ht.symm.trans ht'
  | abandon u =>
    obtain rfl := Option.some.inj hturn
    obtain ⟨h, stay, purpose, stage, ht'⟩ := hp
    exact nomatch ht.symm.trans ht'
  | _ => cases hturn

end System

end SecondChance
