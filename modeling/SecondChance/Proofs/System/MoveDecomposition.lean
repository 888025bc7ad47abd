import SecondChance.Proofs.System.Order

/-!
Every move is made of acts.

For each operation the next step is taken apart, and the acts that it consists of are listed in
their order. Whatever all acts keep is therefore kept by all moves.
-/

namespace SecondChance.System

variable {s : System} {t : TaskId} {fault : Option Fault}

/-- The system in which a task stands where its step has left it. -/
def turnTo (s : System) (t : TaskId) : Turn → System
  | .goesOn task => s.setTask t task
  | .ends _ => s.endTask t

theorem resume_fst {task : Task} (ht : s.tasks.find? t = some task) :
    (s.resume t fault).1 = (s.advance t fault task).1.turnTo t (s.advance t fault task).2.2 := by
  simp only [resume, ht]
  generalize s.advance t fault task = p
  obtain ⟨s', events, turn⟩ := p
  cases turn <;> rfl

theorem isReady_iff : s.isReady t = true ↔
    ∃ task, s.tasks.find? t = some task ∧ task.isReady s.pool t = true := by
  unfold isReady
  cases s.tasks.find? t <;> simp

theorem transferOf_eq {task : Task} (ht : s.tasks.find? t = some task) :
    s.transferOf t = task.transfer? := by
  rw [transferOf, ht]
  rfl

/-! ### Fetching -/

theorem acts_lookForFetch {file : FileNo} {page : PageNo} {h : HandleNo} {w : Option Stay}
    {look : Option Ticket} (hn : 0 < s.pool.ledger.size)
    (ht : s.tasks.find? t = some (.fetch file page h w (.look look))) :
    Acts s [] ((s.lookForFetch t file page h w).1.turnTo t
      (s.lookForFetch t file page h w).2.2) := by
  have plain : Task.IsPlain (.fetch file page h w (.look look)) := ⟨rfl, rfl⟩
  obtain ⟨l, r, ha⟩ : ∃ l r, s.pool.ledger.acquire s.labels file page w = (l, r) := ⟨_, _, rfl⟩
  simp only [lookForFetch, ha]
  cases Ledger.acquire_cases hn ha with dsimp only
  | hit hk ho => exact .one (.hit ht hk ho)
  | astray => exact .cons (.ease (.refl ..)) (.one (.stop ht plain))
  | load d hk hm hi ho =>
    exact .cons (.ease hm) (.cons (.install ht (hm.find?_eq_none hk) hi ho) (.one (.latch _)))
  | @writeBack m i o hk hm ho hs hd =>
    have claim : Act (s.setLedger m) []
        (((s.setLedger m).setLedger (m.setOccupant i o.claimed)).setTask t
          (.fetch file page h none (.move ⟨.writeBack, m.stayOf i o⟩))) :=
      .claim ht plain ho (Occupant.standing_eq_available.1 hs).2 hd rfl (Task.follows_fetch ..)
    exact .cons (.ease hm) (.cons claim (.one (.latch _)))
  | wait hk hm => exact .cons (.ease hm) (.one (.turn ht plain ⟨rfl, rfl⟩ (Task.follows_fetch ..)))
  | exhausted hk hm => exact .cons (.ease hm) (.one (.stop ht plain))

/-! ### The end of a transfer -/

theorem acts_finishLoad {file : FileNo} {page : PageNo} {h : HandleNo} {w : Option Stay}
    {stay : Stay} (ht : s.tasks.find? t = some (.fetch file page h w (.move ⟨.load, stay⟩))) :
    Acts s (s.marksOf fault (.fetch file page h w (.move ⟨.load, stay⟩)))
      ((s.moveForFetch t file page h ⟨.load, stay⟩ fault).1.turnTo t
        (s.moveForFetch t file page h ⟨.load, stay⟩ fault).2.2) := by
  obtain ⟨files, r, hr⟩ : ∃ files r,
    s.files.read fault stay.file stay.page (.page (s.pool.buffer stay.frame)) = (files, r) :=
      ⟨_, _, rfl⟩
  have read := Act.read fault stay.file stay.page (s.pool.buffer stay.frame) (s := s)
  have hl := Catalog.registry_read s.files fault stay.file stay.page
    (.page (s.pool.buffer stay.frame))
  rw [hr] at read hl
  simp only [moveForFetch, finishTransfer, finishLoad, marksOf, hr]
  cases r with dsimp only
  | error e =>
    have hx := transferOf_eq (s := s.setFiles files) ht
    exact .cons read (.cons (.fill hx .zero) (.mark (.lost ht rfl) (.one (.latch _))))
  | ok content =>
    rw [Catalog.labels_of_registry hl]
    exact .mark (.loaded ht hr) (.one (.latch _))

section WriteBack

variable {task : Task} {stay : Stay} (ht : s.tasks.find? t = some task)
  (hx : task.transfer? = some ⟨.writeBack, stay⟩) {s' : System} {events : List Event}
include ht hx

theorem acts_written {task' : Task} (hp : task'.IsPlain) (hn : task.Follows s.labels task')
    (h : s.finishTransfer t ⟨.writeBack, stay⟩ fault = (s', events, .ok ())) :
    Acts s [] (s'.setTask t task') := by
  obtain ⟨files, r, hr⟩ : ∃ files r,
    s.files.write fault stay.file stay.page (.page (s.pool.buffer stay.frame)) = (files, r) :=
      ⟨_, _, rfl⟩
  have hl := Catalog.registry_write s.files fault stay.file stay.page
    (.page (s.pool.buffer stay.frame))
  rw [hr] at hl
  simp only [finishTransfer, finishWriteBack, hr, Catalog.labels_of_registry hl] at h
  cases r with
  | error e => cases h
  | ok =>
    obtain ⟨rfl, -⟩ := Prod.mk.inj h
    exact .cons (.wrote ht hx hr hp hn) (.one (.latch _))

theorem acts_unwritten {e : StoreError}
    (h : s.finishTransfer t ⟨.writeBack, stay⟩ fault = (s', events, .error e)) :
    Acts s [] (s'.endTask t) := by
  obtain ⟨files, r, hr⟩ : ∃ files r,
    s.files.write fault stay.file stay.page (.page (s.pool.buffer stay.frame)) = (files, r) :=
      ⟨_, _, rfl⟩
  have write := Act.write ((transferOf_eq ht).trans hx) fault
  rw [hr] at write
  simp only [finishTransfer, finishWriteBack, hr] at h
  cases r with
  | error e =>
    obtain ⟨rfl, -⟩ := Prod.mk.inj h
    exact .cons write (.cons (.unwritten ht hx) (.one (.latch _)))
  | ok => cases h

end WriteBack

theorem acts_moveForFetch {file : FileNo} {page : PageNo} {h : HandleNo} {w : Option Stay}
    {x : Transfer} (ht : s.tasks.find? t = some (.fetch file page h w (.move x))) :
    Acts s (s.marksOf fault (.fetch file page h w (.move x)))
      ((s.moveForFetch t file page h x fault).1.turnTo t
        (s.moveForFetch t file page h x fault).2.2) := by
  obtain ⟨kind, stay⟩ := x
  cases kind with
  | load => exact acts_finishLoad ht
  | writeBack =>
    obtain ⟨s', events, r, hr⟩ : ∃ s' events r,
      s.finishTransfer t ⟨.writeBack, stay⟩ fault = (s', events, r) := ⟨_, _, _, rfl⟩
    simp only [moveForFetch, hr]
    cases r with
    | error e => exact acts_unwritten ht rfl hr
    | ok => exact acts_written ht rfl ⟨rfl, rfl⟩ (Task.follows_fetch ..) hr

/-! ### The other operations -/

theorem acts_lookForExpel {file : FileNo} {page : PageNo} {key : PageKey} {look : Option Ticket}
    (ht : s.tasks.find? t = some (.expel file page key look))
    (hv : Task.IsProper s.labels (.expel file page key look)) :
    Acts s (s.marksOf fault (.expel file page key look))
      ((s.lookForExpel file page key).1.turnTo t (s.lookForExpel file page key).2.2) := by
  have plain : Task.IsPlain (.expel file page key look) := ⟨rfl, rfl⟩
  obtain ⟨l, r, ha⟩ : ∃ l r, s.pool.ledger.expel key (s.name file) page = (l, r) := ⟨_, _, rfl⟩
  simp only [lookForExpel, ha, marksOf]
  cases Ledger.expel_cases ha with clear ha
  | absent hk =>
    have hs : s.pool.ledger.expels key = false := by simp [Ledger.expels, hk]
    simp only [hs]
    exact .one (.turn ht plain ⟨rfl, rfl⟩ ⟨trivial, rfl, rfl, rfl⟩)
  | astray hk ho =>
    have hs : s.pool.ledger.expels key = false := by simp [Ledger.expels, hk, ho]
    simp only [hs]
    exact .one (.stop ht plain)
  | pinned hk ho hp =>
    have hs : s.pool.ledger.expels key = false := by
      simp [Ledger.expels, hk, ho, Occupant.standing_eq_pinned.2 hp]
    simp only [hs]
    exact .one (.stop ht plain)
  | wait hk ho hb =>
    have hs : s.pool.ledger.expels key = false := by simp [Ledger.expels, hk, ho, hb]
    simp only [hs]
    exact .one (.turn ht plain ⟨rfl, rfl⟩ ⟨hv, rfl, rfl, rfl⟩)
  | emptied hk ho ha =>
    have hs : s.pool.ledger.expels key = true := by simp [Ledger.expels, hk, ho, ha]
    simp only [hs, if_true]
    exact .mark (.expel ht hk ho ha) (.one (.turn ht plain ⟨rfl, rfl⟩ ⟨trivial, rfl, rfl, rfl⟩))

theorem acts_lookForFlushFile {file : FileNo} {frame : FrameNo} {written : Nat}
    {look : Option Ticket}
    (ht : s.tasks.find? t = some (.flushFile file frame written (.look look))) :
    Acts s [] ((s.lookForFlushFile t file frame written).1.turnTo t
      (s.lookForFlushFile t file frame written).2.2) := by
  have plain : Task.IsPlain (.flushFile file frame written (.look look)) := ⟨rfl, rfl⟩
  by_cases hf : frame < s.pool.size
  · obtain ⟨l, r, ha⟩ : ∃ l r,
        s.pool.ledger.flushFileAt s.labels frame (s.labels file).id = (l, r) := ⟨_, _, rfl⟩
    simp only [lookForFlushFile, if_pos hf, ha]
    cases Ledger.flushFileAt_cases ha with dsimp only
    | skip => exact .one (.turn ht plain ⟨rfl, rfl⟩ ⟨trivial, rfl, rfl, rfl⟩)
    | astray | pinned => exact .one (.stop ht plain)
    | wait => exact .one (.turn ht plain ⟨rfl, rfl⟩ ⟨trivial, rfl, rfl, rfl⟩)
    | @claimed x ho _ hs hd =>
      have hio := (Occupant.standing_eq_available.1 hs).2
      have follows : Task.Follows s.labels (.flushFile file frame written (.look look))
        (.flushFile file frame written (.move ⟨.writeBack, s.pool.ledger.stayOf frame x⟩)) :=
          ⟨rfl, rfl, rfl, rfl⟩
      exact .cons (.claim ht plain ho hio hd rfl follows) (.one (.latch _))
    | emptied ho _ hs hd =>
      exact .cons (.ease (.vacated (.refl ..) ho hs hd))
        (.one (.turn ht plain ⟨rfl, rfl⟩ ⟨trivial, rfl, rfl, rfl⟩))
  · simp only [lookForFlushFile, if_neg hf]
    split
    · exact .one (.stop ht plain)
    · exact .one (.turn ht plain ⟨rfl, rfl⟩ ⟨trivial, rfl, rfl, rfl⟩)

theorem acts_lookForFlushAll {frame : FrameNo} {files : List FileNo} {look : Option Ticket}
    (ht : s.tasks.find? t = some (.flushAll frame files (.look look))) :
    Acts s [] ((s.lookForFlushAll t frame files).1.turnTo t
      (s.lookForFlushAll t frame files).2.2) := by
  have plain : Task.IsPlain (.flushAll frame files (.look look)) := ⟨rfl, rfl⟩
  by_cases hf : frame < s.pool.size
  · obtain ⟨l, r, ha⟩ : ∃ l r, s.pool.ledger.flushAllAt frame = (l, r) := ⟨_, _, rfl⟩
    simp only [lookForFlushAll, if_pos hf, ha]
    cases Ledger.flushAllAt_cases ha with dsimp only
    | skip | wait => exact .one (.turn ht plain ⟨rfl, rfl⟩ ⟨trivial, rfl, rfl, rfl⟩)
    | @claimed x ho hio hd =>
      have follows : Task.Follows s.labels (.flushAll frame files (.look look))
        (.flushAll frame files (.move ⟨.writeBack, s.pool.ledger.stayOf frame x⟩)) :=
          ⟨rfl, rfl, rfl, rfl⟩
      exact .cons (.claim ht plain ho hio hd rfl follows) (.one (.latch _))
  · simp only [lookForFlushAll, if_neg hf]
    exact .one (.turn ht plain ⟨rfl, rfl⟩ ⟨trivial, rfl, rfl, rfl⟩)

theorem acts_enter {h : HandleNo} {stay : Stay} {purpose : Access} {stage : AccessStage}
    (ht : s.tasks.find? t = some (.access h stay purpose stage)) :
    Acts s [] ((s.enter t h stay purpose).1.turnTo t (s.enter t h stay purpose).2.2) := by
  simp only [enter]
  split
  · exact .cons (.latch _) (.one (.quit ht))
  · exact .cons (.latch _) (.one (.queue ht nofun))
  · next hl =>
    have enter := Act.enter ht hl
    cases purpose <;> exact .one enter

theorem acts_use {h : HandleNo} {stay : Stay} {purpose : Access}
    (ht : s.tasks.find? t = some (.access h stay purpose .inside)) :
    Acts s (s.marksOf fault (.access h stay purpose .inside))
      ((s.use t stay purpose).1.turnTo t (s.use t stay purpose).2.2) := by
  cases purpose with
  | read => exact .cons (.latch _) (.one (.quit ht))
  | write e => exact .mark (.edit ht e) (.cons (.latch _) (.one (.quit ht)))

/-! ### Moves -/

theorem acts_advance {task : Task} (o : s.Orderly) (hn : 0 < s.pool.ledger.size)
    (ht : s.tasks.find? t = some task) :
    Acts s (s.marksOf fault task)
      ((s.advance t fault task).1.turnTo t (s.advance t fault task).2.2) := by
  cases task with
  | allocate file h =>
    have allocate := Act.allocate ht fault
    simp only [advance, marksOf]
    generalize s.files.allocate fault file = p at allocate ⊢
    obtain ⟨files, _ | page⟩ := p
    · exact .mark allocate (.one (.stop ht ⟨rfl, rfl⟩))
    · exact .mark allocate (.one (.turn ht ⟨rfl, rfl⟩ ⟨rfl, rfl⟩ ⟨trivial, rfl, rfl, rfl⟩))
  | fetch file page h w stage =>
    cases stage with
    | look => exact acts_lookForFetch hn ht
    | move => exact acts_moveForFetch ht
  | expel file page key look => exact acts_lookForExpel ht (o.proper ht)
  | delete file page =>
    have delete := Act.delete ht fault
    simp only [advance, marksOf]
    generalize s.files.delete fault file page = p at delete ⊢
    obtain ⟨files, _ | _⟩ := p <;> exact .cons delete (.one (.stop ht ⟨rfl, rfl⟩))
  | flushFile file frame written stage =>
    cases stage with
    | look => exact acts_lookForFlushFile ht
    | move x =>
      obtain ⟨kind, stay⟩ := x
      obtain rfl : kind = .writeBack := o.proper ht
      simp only [advance, marksOf]
      split
      · next hr => exact acts_unwritten ht rfl hr
      · next hr => exact acts_written ht rfl ⟨rfl, rfl⟩ ⟨trivial, rfl, rfl, rfl⟩ hr
  | syncFile file written =>
    have sync := Act.sync fault file (s := s)
    simp only [advance, marksOf]
    generalize s.files.sync fault file = p at sync ⊢
    obtain ⟨files, _ | _⟩ := p <;> exact .cons sync (.one (.stop ht ⟨rfl, rfl⟩))
  | flushAll frame files stage =>
    cases stage with
    | look => exact acts_lookForFlushAll ht
    | move x =>
      obtain ⟨kind, stay⟩ := x
      obtain rfl : kind = .writeBack := o.proper ht
      simp only [advance, marksOf]
      split
      · next hr => exact acts_unwritten ht rfl hr
      · next hr => exact acts_written ht rfl ⟨rfl, rfl⟩ ⟨trivial, rfl, rfl, rfl⟩ hr
  | syncAll n files =>
    cases files with
    | nil => exact .one (.stop ht ⟨rfl, rfl⟩)
    | cons file remaining =>
      have sync := Act.sync fault file (s := s)
      simp only [advance, marksOf]
      generalize s.files.sync fault file = p at sync ⊢
      obtain ⟨files, _ | _⟩ := p
      · exact .cons sync (.one (.stop ht ⟨rfl, rfl⟩))
      · exact .cons sync (.one (.turn ht ⟨rfl, rfl⟩ ⟨rfl, rfl⟩ ⟨trivial, rfl, rfl, rfl⟩))
  | access h stay purpose stage =>
    cases stage with
    | latching => cases purpose <;> exact acts_enter ht
    | loading => cases purpose <;> exact .cons (.latch _) (.one (.queue ht nofun))
    | inside => exact acts_use ht

theorem acts_begin {op : Operation} (ht : s.tasks.find? t = none) (ha : s.Admits op) :
    Acts s (s.marks (.begin t op)) (s.begin t op) := by
  have start (task : Task) (hp : task.IsPlain) (hv : task.IsProper s.labels)
      (hf : ∀ f, task.target? = some f → s.hasFile f)
      (hh : ∀ h, task.filling? = some h → s.handles.find? h = none ∧ s.IsUnused h) :
      Acts s task.opening (s.setTask t task) := .one (.start ht hp hv hf hh)
  cases op with
  | fetch file page h =>
    obtain ⟨hf, hh, hu⟩ := ha
    refine start (.fetch file page h none (.look none)) ⟨rfl, rfl⟩ trivial ?_ ?_
    · rintro _ ⟨⟩
      exact hf
    · rintro _ ⟨⟩
      exact ⟨hh, hu⟩
  | allocate file h =>
    obtain ⟨hf, hh, hu⟩ := ha
    refine start (.allocate file h) ⟨rfl, rfl⟩ trivial ?_ ?_
    · rintro _ ⟨⟩
      exact hf
    · rintro _ ⟨⟩
      exact ⟨hh, hu⟩
  | dispose file page =>
    exact start (.expel file page (s.labels.key file page) none) ⟨rfl, rfl⟩ rfl nofun nofun
  | flushFile file =>
    exact start (.flushFile file 0 0 (.look none)) ⟨rfl, rfl⟩ trivial nofun nofun
  | flushAll => exact start (.flushAll 0 [] (.look none)) ⟨rfl, rfl⟩ trivial nofun nofun
  | access h stay purpose =>
    have hh : ∃ d, s.handles.find? h = some ⟨stay, d⟩ := by
      cases purpose <;> exact ha.1
    obtain ⟨d, hh⟩ := hh
    exact .cons (.borrow purpose ht hh) (.one (.latch _))

theorem acts_release {h : HandleNo} (hu : s.IsUnused h) : Acts s [] (s.release h).1 := by
  unfold release
  split
  · exact .done s
  · next x hh => exact .one (.giveBack hh hu rfl)

theorem drop_fst (s : System) (h : HandleNo) : (s.drop h).1 = (s.release h).1 := by
  unfold drop release
  split
  · rfl
  · next x hh =>
    simp only
    split <;> simp_all

theorem acts_cancel {task : Task} (ht : s.tasks.find? t = some task)
    (ha : ∀ h stay purpose stage, task = .access h stay purpose stage →
      ∀ e ∈ s.tasks.entries, e.1 ≠ t → e.2.handle? ≠ some h) :
    Acts s (s.marks (.cancel t)) (s.cancel t).1 := by
  simp only [marks, transferOf_eq ht, cancel, ht]
  cases task with
  | fetch _ _ _ _ stage | flushFile _ _ _ stage | flushAll _ _ stage =>
    cases stage with
    | look => exact .one (.stop ht ⟨rfl, rfl⟩)
    | move x =>
      -- A transfer that is under way ends as one that has failed.
      obtain ⟨_ | _, stay⟩ := x
      · exact .mark (.lost ht rfl) (.one (.latch _))
      · exact .cons (.unwritten ht rfl) (.one (.latch _))
  | access h stay purpose stage =>
    have hu : (s.endTask t).IsUnused h := by
      intro e he
      obtain ⟨he, hne⟩ := List.mem_filter.1 he
      exact ha h stay purpose stage rfl e he (by simpa using hne)
    simp only [drop_fst]
    cases stage with
    | latching | inside => exact .cons (.quit ht) (.cons (.latch _) (acts_release hu))
    | loading => exact .cons (.quit ht) (acts_release hu)
  | _ => exact .one (.stop ht ⟨rfl, rfl⟩)

/-- Every permitted move is made of acts whose marks together are those of the move. -/
theorem acts_after {m : Move} (o : s.Orderly) (hn : 0 < s.pool.ledger.size) (hp : s.Permits m) :
    Acts s (s.marks m) (s.after m) := by
  cases m with
  | begin t op => exact acts_begin hp.1 hp.2
  | resume t fault =>
    obtain ⟨task, ht, -⟩ := isReady_iff.1 hp
    simp only [after, marks, ht, resume_fst ht]
    exact acts_advance o hn ht
  | cancel t =>
    obtain ⟨task, ht, ha⟩ := hp
    exact acts_cancel ht ha
  | abandon t =>
    obtain ⟨h, stay, purpose, stage, ht⟩ := hp
    simp only [after, abandon, ht]
    cases stage with
    | latching | inside => exact .cons (.quit ht) (.one (.latch _))
    | loading => exact .one (.quit ht)
  | markDirty h => exact .one (.markDirty h)
  | release h => exact acts_release hp.2
  | drop h =>
    rw [after, drop_fst]
    exact acts_release hp.2
  | detach h =>
    obtain ⟨⟨x, hh⟩, hu⟩ := hp
    simp only [marks, hh]
    exact .one (.detach hh hu)
  | unpin file page dirty =>
    simp only [after, marks, System.unpin]
    split
    · next hr => exact .one (.unpin hr)
    · next hr => exact .one (.unpin hr)
    · next hr => exact .one (.unpin hr)
  | edit t e =>
    obtain ⟨h, stay, e₀, ht⟩ := hp
    simp only [after, marks, edit, ht]
    exact .one (.edit ht e)
  | fill t content =>
    obtain ⟨-, stay, hx⟩ := hp
    simp only [after, fill, hx]
    exact .one (.fill hx content)
  | strike t =>
    obtain ⟨-, stay, hx⟩ := hp
    simp only [after, strike, hx]
    exact .one (.write hx none)

end SecondChance.System
