import SecondChance.Proofs.Store.Dialogues
import SecondChance.Proofs.System.Desk
import SecondChance.Proofs.System.Provenance

/-!
Operations that run from beginning to end without a break, whatever the page files answer.

Nobody else is at work, but every call may fail in any way. The calls that are made are noted down
with their answers, the oldest first, so an operation can be described by its calls, by its result
and by what it leaves behind. What the notes say is what has happened to the files: each call has
been made of the files that the calls before it had left.
-/

namespace SecondChance

/-- A call that has been made to a page file, and what was answered. -/
structure Made where
  file : FileNo
  call : StoreCall
  answer : StoreAnswer

def StoreCall.kind? : StoreCall → Option CallKind
  | .read .. => some .read
  | .write .. => some .write
  | .allocate => some .alloc
  | .delete _ => some .delete
  | .count => none
  | .sync => some .sync

namespace Catalog

/-- What a call to an open file comes to that meets a fault or none. -/
def callUnder (c : Catalog) (fault : Option Fault) (f : FileNo) : StoreCall → Catalog × StoreAnswer
  | .read n buffer => (c.read fault f n buffer).map id (.ofResult .content)
  | .write n buffer => (c.write fault f n buffer).map id (.ofResult fun _ => .done)
  | .allocate => (c.allocate fault f).map id (.ofResult .number)
  | .delete n => (c.delete fault f n).map id (.ofResult fun _ => .done)
  | .count => (c, .number (c.pageCount f))
  | .sync => (c.sync fault f).map id (.ofResult fun _ => .done)

theorem callUnder_none (c : Catalog) (f : FileNo) (x : StoreCall) :
    c.callUnder none f x = c.call f x := by
  cases x <;> rfl

/-- The calls noted down lead from one state of the files to another, whichever faults they met. -/
inductive Logs : Catalog → List Made → Catalog → Prop
  | none (c : Catalog) : Logs c [] c
  | call {c c' : Catalog} {log : List Made} (fault : Option Fault) (f : FileNo) (x : StoreCall)
      (rest : Logs (c.callUnder fault f x).1 log c') :
      Logs c (⟨f, x, (c.callUnder fault f x).2⟩ :: log) c'

theorem Logs.append {c c' c'' : Catalog} {log log' : List Made} (h : c.Logs log c')
    (h' : c'.Logs log' c'') : c.Logs (log ++ log') c'' := by
  induction h with
  | none => exact h'
  | call fault f x _ ih => exact .call fault f x (ih h')

end Catalog

namespace System

variable {s s' : System} {t : TaskId} {task : Task} {fault : Option Fault} {log : List Made}

/-! ### The call of a step -/

/-- The call that a task makes when it goes on. A transfer is made from the frame or into it. -/
def callOf (s : System) : Task → Option (FileNo × StoreCall)
  | .allocate file _ => some (file, .allocate)
  | .delete file page => some (file, .delete page)
  | .syncFile file _ | .syncAll _ (file :: _) => some (file, .sync)
  | task => task.transfer?.map fun x =>
    (x.stay.file, match x.kind with
      | .load => .read x.stay.page (.page (s.pool.buffer x.stay.frame))
      | .writeBack => .write x.stay.page (.page (s.pool.buffer x.stay.frame)))

/-- What is noted down when a task goes on. -/
def made (s : System) (fault : Option Fault) (task : Task) : List Made :=
  (s.callOf task).toList.map fun (f, x) => ⟨f, x, (s.files.callUnder fault f x).2⟩

/-- The call is of the kind that the task announces. -/
theorem kind?_callOf (s : System) (task : Task) :
    (s.callOf task).map (fun (f, x) => (f, x.kind?)) = task.call?.map fun (f, k) => (f, some k) := by
  have transfer (x : Option Transfer) :
      (x.map fun x => (x.stay.file, match x.kind with
        | .load => StoreCall.read x.stay.page (.page (s.pool.buffer x.stay.frame))
        | .writeBack => .write x.stay.page (.page (s.pool.buffer x.stay.frame)))).map
          (fun (f, x) => (f, x.kind?)) =
        (x.map fun x => (x.stay.file, x.call)).map fun (f, k) => (f, some k) := by
    rcases x with _ | ⟨kind, stay⟩
    · rfl
    · cases kind <;> rfl
  cases task with
  | fetch | flushFile | flushAll => exact transfer _
  | syncAll n files => cases files <;> rfl
  | _ => rfl

theorem made_of_silent (silent : s.callOf task = none) : s.made fault task = [] := by
  rw [made, silent]
  rfl

theorem files_finishTransfer (s : System) (t : TaskId) (x : Transfer) (fault : Option Fault) :
    (s.finishTransfer t x fault).1.files = (s.files.callUnder fault x.stay.file
      (match x.kind with
      | .load => .read x.stay.page (.page (s.pool.buffer x.stay.frame))
      | .writeBack => .write x.stay.page (.page (s.pool.buffer x.stay.frame)))).1 := by
  obtain ⟨kind, stay⟩ := x
  cases kind with
  | load =>
    simp only [finishTransfer, finishLoad]
    split <;> rfl
  | writeBack =>
    simp only [finishTransfer, finishWriteBack]
    split <;> rfl

theorem logs_one (fault : Option Fault) (f : FileNo) (x : StoreCall) {c : Catalog}
    (h : c = (s.files.callUnder fault f x).1) :
    s.files.Logs [⟨f, x, (s.files.callUnder fault f x).2⟩] c := by
  subst h
  exact .call fault f x (.none _)

/-- A step does to the files what its call does, and nothing if it makes none. -/
theorem logs_resume (ht : s.tasks.find? t = some task) (fault : Option Fault) :
    s.files.Logs (s.made fault task) (s.after (.resume t fault)).files := by
  have move {x : Transfer} (hx : task.transfer? = some x) :
      s.files.Logs [⟨x.stay.file, _, _⟩] (s.after (.resume t fault)).files :=
    logs_one fault _ _ <| (files_resume_move ((transferOf_eq ht).trans hx)).trans
      (s.files_finishTransfer t x fault)
  have same : (s.after (.resume t fault)).files = (s.advance t fault task).1.files := by
    rw [after, resume_fst ht, files_turnTo]
  rw [same] at move ⊢
  cases task with
  | fetch file page k w stage =>
    cases stage with
    | look =>
      simp only [advance, lookForFetch]
      split <;> exact .none _
    | move x => exact move rfl
  | flushFile file i w stage =>
    cases stage with
    | look =>
      simp only [advance, lookForFlushFile]
      repeat' split
      all_goals exact .none _
    | move x => exact move rfl
  | flushAll i files stage =>
    cases stage with
    | look =>
      simp only [advance, lookForFlushAll]
      repeat' split
      all_goals exact .none _
    | move x => exact move rfl
  | allocate file k =>
    refine logs_one fault file .allocate ?_
    simp only [advance, Catalog.callUnder]
    split <;> next hr => rw [hr]; rfl
  | delete file page =>
    refine logs_one fault file (.delete page) ?_
    simp only [advance, Catalog.callUnder]
    split <;> next hr => rw [hr]; rfl
  | syncFile file w =>
    refine logs_one fault file .sync ?_
    simp only [advance, Catalog.callUnder]
    split <;> next hr => rw [hr]; rfl
  | syncAll n files =>
    cases files with
    | nil => exact .none _
    | cons file files =>
      refine logs_one fault file .sync ?_
      simp only [advance, Catalog.callUnder]
      split <;> next hr => rw [hr]; rfl
  | expel file page key look =>
    simp only [advance, lookForExpel]
    split <;> exact .none _
  | access k stay purpose stage =>
    cases stage with
    | latching =>
      simp only [advance, enter]
      split
      · exact .none _
      · exact .none _
      · cases purpose <;> exact .none _
    | loading => exact .none _
    | inside => cases purpose <;> exact .none _

/-! ### Without a break -/

/-- Takes a task on as long as it is ready, one step for each of the faults that its calls may meet.
The calls are noted down, and the result is there once the task has ended. -/
def goOn : (faults : List (Option Fault)) → System → TaskId → System × List Made × Option Result
  | [], s, _ => (s, [], none)
  | fault :: faults, s, t =>
    if s.isReady t then
      let made := (s.tasks.find? t).elim [] (s.made fault)
      match s.resume t fault with
      | (s, _, some result) => (s, made, some result)
      | (s, _, none) =>
        let (s, log, result) := goOn faults s t
        (s, made ++ log, result)
    else (s, [], none)

theorem goOn_replicate_none (k : Nat) (s : System) (t : TaskId) :
    (s.goOn (List.replicate k none) t).1 = (s.run k t).1 ∧
      (s.goOn (List.replicate k none) t).2.2 = (s.run k t).2.2 := by
  induction k generalizing s with
  | zero => exact ⟨rfl, rfl⟩
  | succ k ih =>
    rw [List.replicate_succ, goOn, run]
    by_cases ready : s.isReady t = true
    · rw [if_pos ready, if_pos ready]
      obtain ⟨s', events, r, hr⟩ : ∃ s' events r, s.resume t none = (s', events, r) := ⟨_, _, _, rfl⟩
      rw [hr]
      cases r with
      | some r => exact ⟨rfl, rfl⟩
      | none => exact ih s'
    · rw [if_neg ready, if_neg ready]
      exact ⟨rfl, rfl⟩

theorem Alone.goOn {I : Task → List Made → System → Prop} {Q : Result → List Made → System → Prop}
    (step : ∀ {s : System} {task : Task} {log : List Made} (fault : Option Fault), s.Alone t →
      s.tasks.find? t = some task → I task log s →
      Leads (I · (log ++ s.made fault task)) (Q · (log ++ s.made fault task))
        ((s.advance t fault task).1.turnTo t (s.advance t fault task).2.2)
        (s.advance t fault task).2.2)
    {faults : List (Option Fault)} (h : s.Alone t) (ht : s.tasks.find? t = some task)
    (hI : I task log s)
    (hk : task.effort s.pool.ledger.size s.pool.ledger.dirtyFrames.card ≤ faults.length) :
    ∃ s' more r, s.goOn faults t = (s', more, some r) ∧ Q r (log ++ more) s' ∧ s'.Alone t ∧
      s'.tasks.find? t = none ∧ s.files.Logs more s'.files := by
  induction faults generalizing s task log with
  | nil => exact (Nat.not_lt.2 hk (Task.effort_pos ..)).elim
  | cons fault faults ih =>
    have leads := step fault h ht hI
    have nearer := h.nearer_advance ht fault
    have alone := h.resume ht fault
    have ready := h.isReady ht
    have logs := logs_resume ht fault
    have possible : s.Permits (.resume t fault) := ready
    have size := (acts_after h.regular.orderly h.regular.consistent.size_pos possible).size
    have gone := find?_after_resume ht fault
    have ledger := ledger_resume ht fault
    have result : (s.resume t fault).2.2 = _ := result_resume ht
    rw [← resume_fst ht] at leads
    obtain ⟨s', events, r, hr⟩ : ∃ s' events r, s.resume t fault = (s', events, r) := ⟨_, _, _, rfl⟩
    obtain rfl : s.after (.resume t fault) = s' := congrArg Prod.fst hr
    rw [hr] at result leads
    rw [Nearer, ← ledger] at nearer
    simp only [System.goOn, if_pos ready, hr, ht, Option.elim_some]
    generalize (s.advance t fault task).2.2 = turn at *
    cases turn with
    | ends r =>
      subst result
      exact ⟨_, _, r, rfl, leads, alone, gone, logs⟩
    | goesOn task' =>
      subst result
      have enough := Nat.le_of_lt_succ (Nat.lt_of_lt_of_le nearer hk)
      rw [← size] at enough
      obtain ⟨s', more, r, hgo, hQ, alone', gone', logs'⟩ := ih alone gone leads enough
      simp only [Turn.result?, hgo]
      exact ⟨_, _, r, rfl, by rwa [← List.append_assoc], alone', gone', logs.append logs'⟩

/-- An operation that has the pool to itself comes to the end that its steps lead to. -/
theorem Quiescent.goOn {op : Operation} {I : Task → List Made → System → Prop}
    {Q : Result → List Made → System → Prop} (h : s.Quiescent) (admits : s.Admits op)
    {faults : List (Option Fault)} (enough : s.ampleSteps ≤ faults.length)
    (first : I (firstTask s.labels op) [] (s.begin t op))
    (step : ∀ {s : System} {task : Task} {log : List Made} (fault : Option Fault), s.Alone t →
      s.tasks.find? t = some task → I task log s →
      Leads (I · (log ++ s.made fault task)) (Q · (log ++ s.made fault task))
        ((s.advance t fault task).1.turnTo t (s.advance t fault task).2.2)
        (s.advance t fault task).2.2) :
    ∃ s' log r, (s.begin t op).goOn faults t = (s', log, some r) ∧ s'.Quiescent ∧
      s.files.Logs log s'.files ∧ Q r log s' := by
  obtain ⟨-, alone, ht⟩ := h.begin admits t
  have effort := s.effort_firstTask_le s.labels op
  rw [← ledger_begin s t op] at effort
  obtain ⟨s', log, r, hgo, hQ, alone', gone, logs⟩ :=
    alone.goOn step ht first (effort.trans enough)
  have files : (s.begin t op).files = s.files := by cases op <;> rfl
  exact ⟨s', log, r, hgo, alone'.quiescent gone, files ▸ logs, hQ⟩

end System

/-! ### Writing a page back -/

namespace Made

def read (file : FileNo) (page : PageNo) (content : Page) (answer : StoreAnswer) : Made :=
  ⟨file, .read page (.page content), answer⟩

def write (o : Occupant) (content : Page) (answer : StoreAnswer) : Made :=
  ⟨o.file, .write o.page (.page content), answer⟩

def sync (file : FileNo) (answer : StoreAnswer) : Made := ⟨file, .sync, answer⟩

end Made

def Occupant.cleaned (o : Occupant) : Occupant := { o with dirty := false }

namespace Ledger

variable {l m : Ledger} {i : FrameNo} {o q : Occupant}

theorem setOccupant_setOccupant (hi : i < l.size) :
    (l.setOccupant i o).setOccupant i q = l.setOccupant i q := by
  have same : (l.setOccupant i o).frame i = { l.frame i with occupant := some o } :=
    (frame_setFrame_of_lt hi _ i).trans (if_pos rfl)
  unfold setOccupant at same ⊢
  rw [same]
  simp only [setFrame, Array.setIfInBounds_setIfInBounds]

theorem setOccupant_self (ho : l.occupant? i = some o) : l.setOccupant i o = l := by
  have inside : i < l.frames.size := lt_size_of_occupant? ho
  have same : { l.frame i with occupant := some o } = l.frames[i] := by
    rw [← ho, occupant?, frame, Array.getElem?_eq_getElem inside, Option.getD_some]
  show { l with frames := l.frames.setIfInBounds i { l.frame i with occupant := some o } } = l
  rw [same, Array.setIfInBounds, dif_pos inside, Array.set_getElem_self]

theorem vacate_setOccupant (hi : i < l.size) (k : PageKey) :
    (l.setOccupant i o).vacate i k = l.vacate i k := by
  have same : (l.setOccupant i o).frame i = { l.frame i with occupant := some o } :=
    (frame_setFrame_of_lt hi _ i).trans (if_pos rfl)
  unfold vacate
  rw [same]
  simp only [setOccupant, setFrame, Array.setIfInBounds_setIfInBounds, Frame.clear]

theorem Consistent.find?_erase {labels : Labels} (h : l.Consistent labels)
    (ho : l.occupant? i = some o) (k : PageKey) :
    (l.table.erase (o.key labels)).find? k = (l.table.find? k).filter (· ≠ i) := by
  rw [Table.find?_erase]
  by_cases hk : o.key labels = k
  · rw [if_pos hk, ← hk, h.find?_key ho, Option.filter_some, if_neg (by simp)]
  · rw [if_neg hk]
    cases hj : l.table.find? k with
    | none => rfl
    | some j =>
      obtain ⟨q, hq, hqk⟩ := h.occupant?_of_find? hj
      have other : j ≠ i := by
        rintro rfl
        exact hk (Option.some.inj (ho.symm.trans hq) ▸ hqk)
      rw [Option.filter_some, if_pos (by simpa using other)]

end Ledger

namespace System

variable {s s' s'' : System} {t : TaskId} {task : Task} {fault : Option Fault}

/-- The files have the same labels in both systems, the same handles are lent out, and the buffers
are the same. -/
structure Stays (s s' : System) : Prop where
  labels : s'.labels = s.labels
  handles : s'.handles = s.handles
  buffers : s'.pool.buffers = s.pool.buffers

theorem Stays.refl (s : System) : s.Stays s := ⟨rfl, rfl, rfl⟩

theorem Stays.trans (h : s.Stays s') (h' : s'.Stays s'') : s.Stays s'' :=
  ⟨h'.labels.trans h.labels, h'.handles.trans h.handles, h'.buffers.trans h.buffers⟩

theorem Stays.setFiles {files : Catalog} (h : s.Stays s')
    (same : files.registry = s'.files.registry) : s.Stays (s'.setFiles files) :=
  h.trans ⟨Catalog.labels_of_registry same, rfl, rfl⟩

theorem Stays.buffer (h : s.Stays s') (i : FrameNo) : s'.pool.buffer i = s.pool.buffer i := by
  rw [Pool.buffer, h.buffers, Pool.buffer]

/-- The page of a frame is being written back, and apart from that the ledger is `l`. -/
structure Claimed (l : Ledger) (i : FrameNo) (o : Occupant) (x : Transfer) (s : System) : Prop where
  occupant : l.occupant? i = some o
  idle : o.io = .idle
  dirty : o.dirty = true
  transfer : x = ⟨.writeBack, l.stayOf i o⟩
  ledger : s.pool.ledger = l.setOccupant i o.claimed

/-- What comes of writing back the page of a frame: it is clean now, or all is as it was. -/
inductive WritesBack (l : Ledger) (i : FrameNo) (o : Occupant) (s : System) :
    List Made → System × List Event × Except StoreError Unit → Prop
  | written {s' : System} {events : List Event} (same : s.Stays s')
      (ledger : s'.pool.ledger = l.setOccupant i o.cleaned) :
      WritesBack l i o s [.write o (s.pool.buffer i) .done] (s', events, .ok ())
  | refused {s' : System} {events : List Event} {e : StoreError} (same : s.Stays s')
      (ledger : s'.pool.ledger = l) :
      WritesBack l i o s [.write o (s.pool.buffer i) (.refused e)] (s', events, .error e)

theorem Claimed.writesBack {l : Ledger} {i : FrameNo} {o : Occupant} {x : Transfer}
    (h : s.Claimed l i o x) (hx : task.transfer? = some x) (t : TaskId) (fault : Option Fault) :
    WritesBack l i o s (s.made fault task) (s.finishTransfer t x fault) := by
  obtain ⟨ho, idle, dirty, rfl, ledger⟩ := h
  have hi := Ledger.lt_size_of_occupant? ho
  have call : s.callOf task = some (o.file, .write o.page (.page (s.pool.buffer i))) := by
    cases task with
    | fetch | flushFile | flushAll =>
      show (Option.map _ (Stage.transfer? _)) = _
      rw [show Stage.transfer? _ = some _ from hx]
      rfl
    | _ => cases hx
  have hat : (s.pool.ledger.frame i).occupantAt (l.stayOf i o).generation = some o.claimed := by
    rw [ledger, Ledger.occupantAt_frame, Ledger.generation_setOccupant,
      Ledger.occupant?_setOccupant hi, if_pos rfl]
    exact ⟨rfl, rfl⟩
  have written (labels : Labels) : s.pool.ledger.settle labels ⟨.writeBack, l.stayOf i o⟩ true =
      l.setOccupant i o.cleaned := by
    have rested : { o.claimed with io := .idle } = o.cleaned := by rw [← idle]; rfl
    rw [Ledger.settle_succeeded hat rfl, rested, ledger]
    exact Ledger.setOccupant_setOccupant hi
  have refused (labels : Labels) :
      s.pool.ledger.settle labels ⟨.writeBack, l.stayOf i o⟩ false = l := by
    have restored : { o.claimed with io := .idle, dirty := true } = o := by
      cases o
      simp_all [Occupant.claimed]
    rw [Ledger.settle_writeBack_failed hat rfl, restored, ledger]
    exact (Ledger.setOccupant_setOccupant hi).trans (Ledger.setOccupant_self ho)
  have labels := s.labels_finishTransfer t ⟨.writeBack, l.stayOf i o⟩ fault
  simp only [made, call, Catalog.callUnder, finishTransfer, finishWriteBack, Ledger.stayOf,
    Option.toList_some, List.map_cons, List.map_nil] at written refused labels ⊢
  generalize s.files.write fault o.file o.page _ = r at labels ⊢
  obtain ⟨files, r⟩ := r
  cases r with
  | ok => exact .written ⟨labels, rfl, rfl⟩ (written files.labels)
  | error e => exact .refused ⟨labels, rfl, rfl⟩ (refused files.labels)

end System

theorem ReachesShared.quiescent {allowed : Move → Prop} {n : Nat} (hn : 0 < n) {c : Catalog}
    {h : History} {s : System} (run : ReachesShared allowed (.new n c) h s)
    (idle : ∀ t, s.tasks.find? t = none) : s.Quiescent :=
  ⟨run.regular hn, run.attended hn, idle⟩

/-! ### Two frames -/

def pairFiles : Catalog :=
  let opened := (Catalog.empty.openMemory "pair" none).1
  (((opened.allocate none 0).1.allocate none 0).1.allocate none 0).1

/-- A pool of two frames over a file of three pages. -/
def System.pair : System := .new 2 pairFiles

theorem distinct_pair : pairFiles.Distinct := by
  intro f g hf hg _
  have hf : f < 1 := hf
  have hg : g < 1 := hg
  omega

/-- Two pages are lent out, and the first of them is given back dirty. -/
def pairHeld : List Move :=
  [.begin 0 (.fetch 0 0 0), .resume 0 none, .resume 0 none, .begin 0 (.fetch 0 1 1), .resume 0 none,
    .resume 0 none, .markDirty 0, .release 0]

/-- Both pages are given back dirty. -/
def pairChanged : List Move := pairHeld ++ [.markDirty 1, .release 1]

theorem reaches_pairHeld : Reaches (fun _ => True) .pair (System.pair.play pairHeld).1
    (System.pair.play pairHeld).2 := by
  refine .play ⟨⟨rfl, Nat.zero_lt_one, rfl, nofun⟩, rfl, rfl, ⟨rfl, Nat.zero_lt_one, rfl, nofun⟩,
    rfl, rfl, ⟨⟨_, rfl⟩, nofun⟩, ⟨⟨_, rfl⟩, nofun⟩, trivial⟩ fun _ _ => trivial

theorem reaches_pairChanged : Reaches (fun _ => True) .pair (System.pair.play pairChanged).1
    (System.pair.play pairChanged).2 :=
  reaches_pairHeld.goOn ⟨⟨⟨_, rfl⟩, nofun⟩, ⟨⟨_, rfl⟩, nofun⟩, trivial⟩ fun _ _ => trivial

theorem idle_pairHeld (t : TaskId) : (System.pair.play pairHeld).2.tasks.find? t = none :=
  Table.find?_of_isEmpty rfl t

theorem idle_pairChanged (t : TaskId) : (System.pair.play pairChanged).2.tasks.find? t = none :=
  Table.find?_of_isEmpty rfl t

end SecondChance
