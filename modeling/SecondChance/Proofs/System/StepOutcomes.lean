import SecondChance.Proofs.System.TaskTurns

/-!
The course that operations take.

A step of a task ends its operation with some result, or leaves it at another place. `Course` lists
the places from which each can be reached, with what was found there, so that whoever wants to know
how an operation got somewhere need not go through the code of all others.
-/

namespace SecondChance

namespace System

variable {s : System} {t : TaskId} {fault : Option Fault}

/-- What a step of a task comes to: how its operation goes on, or with which result it ends. -/
inductive Course (s : System) (t : TaskId) (fault : Option Fault) : Task → Turn → Prop
  | refused {task : Task} (e : PoolError) : Course s t fault task (.ends (.refused e))
  -- Allocating and fetching.
  | allocated {file : FileNo} {h : HandleNo} {page : PageNo}
      (hr : (s.files.allocate fault file).2 = .ok page) :
      Course s t fault (.allocate file h) (.goesOn (.fetch file page h none (.look none)))
  | fetching {file : FileNo} {page : PageNo} {h : HandleNo} {w w' : Option Stay}
      {stage stage' : Stage} :
      Course s t fault (.fetch file page h w stage) (.goesOn (.fetch file page h w' stage'))
  | lent {file : FileNo} {page : PageNo} {h : HandleNo} {w : Option Stay} {stage : Stage}
      (stay : Stay) :
      Course s t fault (.fetch file page h w stage) (.ends (.lent stay.page stay.frame))
  -- Disposing.
  | expelling {file : FileNo} {page : PageNo} {key : PageKey} {look look' : Option Ticket} :
      Course s t fault (.expel file page key look) (.goesOn (.expel file page key look'))
  | expelled {file : FileNo} {page : PageNo} {key : PageKey} {look : Option Ticket}
      (he : (s.pool.ledger.expel key (s.name file) page).2 = .ok none) :
      Course s t fault (.expel file page key look) (.goesOn (.delete file page))
  | deleted {file : FileNo} {page : PageNo} (hr : (s.files.delete fault file page).2 = .ok ()) :
      Course s t fault (.delete file page) (.ends .done)
  -- Flushing one file.
  | flushingFile {file : FileNo} {i i' : FrameNo} {written : Nat} {look : Option Ticket}
      {stage : Stage} : Course s t fault (.flushFile file i written (.look look))
        (.goesOn (.flushFile file i' written stage))
  | wroteFile {file : FileNo} {i : FrameNo} {written : Nat} {x : Transfer}
      (hr : (s.finishTransfer t x fault).2.2 = .ok ()) :
      Course s t fault (.flushFile file i written (.move x))
        (.goesOn (.flushFile file i (written + 1) (.look none)))
  | unwritten {file : FileNo} {i : FrameNo} {look : Option Ticket} :
      Course s t fault (.flushFile file i 0 (.look look)) (.ends .done)
  | behindFile {file : FileNo} {i : FrameNo} {written : Nat} {look : Option Ticket}
      (hw : written ≠ 0) :
      Course s t fault (.flushFile file i written (.look look)) (.goesOn (.syncFile file written))
  | syncedFile {file : FileNo} {written : Nat} (hr : (s.files.sync fault file).2 = .ok ()) :
      Course s t fault (.syncFile file written) (.ends .done)
  -- Flushing everything.
  | flushing {i i' : FrameNo} {files : List FileNo} {look : Option Ticket} {stage : Stage} :
      Course s t fault (.flushAll i files (.look look)) (.goesOn (.flushAll i' files stage))
  | wrote {i : FrameNo} {files : List FileNo} {x : Transfer}
      (hr : (s.finishTransfer t x fault).2.2 = .ok ()) :
      Course s t fault (.flushAll i files (.move x))
        (.goesOn (.flushAll (i + 1) (alsoWritten s.labels files x.stay.file) (.look none)))
  | behind {i : FrameNo} {files : List FileNo} {look : Option Ticket} :
      Course s t fault (.flushAll i files (.look look))
        (.goesOn (.syncAll files.length files))
  | synced {n : Nat} {file : FileNo} {files : List FileNo}
      (hr : (s.files.sync fault file).2 = .ok ()) :
      Course s t fault (.syncAll n (file :: files)) (.goesOn (.syncAll n files))
  | allSynced {n : Nat} : Course s t fault (.syncAll n []) (.ends .done)
  -- Using a page on loan.
  | latching {h : HandleNo} {stay : Stay} {purpose : Access} {stage stage' : AccessStage}
      (hs : stage' ≠ .inside) :
      Course s t fault (.access h stay purpose stage) (.goesOn (.access h stay purpose stage'))
  | entered {h : HandleNo} {stay : Stay} {purpose : Access}
      (hl : s.pool.ledger.stillLoading stay = .ok false) :
      Course s t fault (.access h stay purpose .latching)
        (.goesOn (.access h stay purpose .inside))
  | read {h : HandleNo} {stay : Stay} : Course s t fault (.access h stay .read .inside)
      (.ends (.content (s.pool.buffer stay.frame)))
  | written {h : HandleNo} {stay : Stay} {e : Page → Page} :
      Course s t fault (.access h stay (.write e) .inside) (.ends .done)

theorem labels_finishTransfer (s : System) (t : TaskId) (x : Transfer) (fault : Option Fault) :
    (s.finishTransfer t x fault).1.labels = s.labels := by
  obtain ⟨kind, stay⟩ := x
  apply Catalog.labels_of_registry
  cases kind with
  | load =>
    simp only [finishTransfer, finishLoad]
    split <;> exact Catalog.registry_read ..
  | writeBack =>
    simp only [finishTransfer, finishWriteBack]
    split <;> exact Catalog.registry_write ..

theorem course_moveForFetch {file : FileNo} {page : PageNo} {h : HandleNo} {w : Option Stay}
    (x : Transfer) : s.Course t fault (.fetch file page h w (.move x))
      (s.moveForFetch t file page h x fault).2.2 := by
  unfold moveForFetch
  split
  · exact .refused _
  · exact .fetching
  · exact .lent x.stay

theorem course_lookForFetch {file : FileNo} {page : PageNo} {h : HandleNo} {w : Option Stay}
    {look : Option Ticket} : s.Course t fault (.fetch file page h w (.look look))
      (s.lookForFetch t file page h w).2.2 := by
  unfold lookForFetch
  split
  · exact .refused _
  · exact .lent _
  · exact .fetching
  · exact .fetching
  · exact .fetching

theorem course_lookForExpel {file : FileNo} {page : PageNo} {key : PageKey}
    {look : Option Ticket} : s.Course t fault (.expel file page key look)
      (s.lookForExpel file page key).2.2 := by
  unfold lookForExpel
  split
  · exact .refused _
  · next he => exact .expelled (by rw [he])
  · exact .expelling

theorem course_lookForFlushFile {file : FileNo} {i : FrameNo} {written : Nat}
    {look : Option Ticket} : s.Course t fault (.flushFile file i written (.look look))
      (s.lookForFlushFile t file i written).2.2 := by
  unfold lookForFlushFile
  split
  · split
    · exact .refused _
    · exact .flushingFile
    · exact .flushingFile
    · exact .flushingFile
  · split
    · next hw =>
      subst hw
      exact .unwritten
    · next hw => exact .behindFile hw

theorem course_lookForFlushAll {i : FrameNo} {files : List FileNo} {look : Option Ticket} :
    s.Course t fault (.flushAll i files (.look look)) (s.lookForFlushAll t i files).2.2 := by
  unfold lookForFlushAll
  split
  · split <;> exact .flushing
  · exact .behind

theorem course_enter {h : HandleNo} {stay : Stay} {purpose : Access} :
    s.Course t fault (.access h stay purpose .latching) (s.enter t h stay purpose).2.2 := by
  unfold enter
  split
  · exact .refused _
  · exact .latching (by simp)
  · next hl => exact .entered hl

theorem course_advance (task : Task) : s.Course t fault task (s.advance t fault task).2.2 := by
  cases task with
  | allocate file h =>
    simp only [advance]
    split
    · exact .refused _
    · next hr => exact .allocated (by rw [hr])
  | fetch file page h w stage =>
    cases stage with
    | look => exact course_lookForFetch
    | move x => exact course_moveForFetch x
  | expel => exact course_lookForExpel
  | delete file page =>
    simp only [advance]
    split
    · exact .refused _
    · next hr => exact .deleted (by rw [hr])
  | flushFile file i written stage =>
    cases stage with
    | look => exact course_lookForFlushFile
    | move x =>
      simp only [advance]
      split
      · exact .refused _
      · next hr => exact .wroteFile (by rw [hr])
  | syncFile file written =>
    simp only [advance]
    split
    · exact .refused _
    · next hr => exact .syncedFile (by rw [hr])
  | flushAll i files stage =>
    cases stage with
    | look => exact course_lookForFlushAll
    | move x =>
      have labels := s.labels_finishTransfer t x fault
      simp only [advance]
      split
      · exact .refused _
      · next hr =>
        rw [hr] at labels
        rw [show System.labels _ = s.labels from labels]
        exact .wrote (by rw [hr])
  | syncAll n files =>
    cases files with
    | nil => exact .allSynced
    | cons =>
      simp only [advance]
      split
      · exact .refused _
      · next hr => exact .synced (by rw [hr])
  | access h stay purpose stage =>
    cases stage with
    | latching => exact course_enter
    | loading => exact .latching (by simp)
    | inside =>
      cases purpose with
      | read => exact .read
      | write => exact .written

theorem task_after {m : Move} {task : Task} (hn : 0 < s.pool.ledger.size) (hp : s.Permits m)
    (ht : (s.after m).tasks.find? t = some task) :
    (m.turn? ≠ some t ∧ s.tasks.find? t = some task) ∨
    (∃ op, m = .begin t op ∧ task = firstTask s.labels op) ∨
    ∃ fault old, m = .resume t fault ∧ s.tasks.find? t = some old ∧
      s.Course t fault old (.goesOn task) := by
  by_cases turn : m.turn? = some t
  · right
    cases m with
    | begin u op =>
      obtain rfl := Option.some.inj turn
      rw [after, tasks_begin, Table.find?_insert_self] at ht
      exact .inl ⟨op, rfl, (Option.some.inj ht).symm⟩
    | resume u fault =>
      obtain rfl := Option.some.inj turn
      obtain ⟨old, before, -⟩ := isReady_iff.1 hp
      rw [find?_after_resume before] at ht
      have course : s.Course u fault old (s.advance u fault old).2.2 := course_advance old
      generalize (s.advance u fault old).2.2 = result at course ht
      cases result with
      | goesOn task' =>
        obtain rfl := Option.some.inj ht
        exact .inr ⟨fault, old, rfl, before, course⟩
      | ends => cases ht
    | cancel u =>
      obtain rfl := Option.some.inj turn
      obtain ⟨old, before, -⟩ := hp
      rw [after, tasks_cancel before, Table.find?_erase_self] at ht
      cases ht
    | abandon u =>
      obtain rfl := Option.some.inj turn
      obtain ⟨k, stay, purpose, stage, before⟩ := hp
      simp only [after, abandon, before, Table.find?_erase_self] at ht
      cases ht
    | _ => cases turn
  · exact .inl ⟨turn, by rwa [find?_after_of_ne hn hp turn] at ht⟩

end System

end SecondChance
