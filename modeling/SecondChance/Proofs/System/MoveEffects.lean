import SecondChance.Proofs.Store.Pages
import SecondChance.Proofs.System.SharedFiles

/-!
What a move does to frames, contents and files.

Each move does one thing at most: it takes one decision about frames, or ends one transfer, or
changes what one frame contains, or makes one call to a file. A `Deed` is that one thing with the
move that does it, so that whoever wants to know which moves can bring something about has one list
to go through. Two things are read off the list. The files are used by transfers, allocations and
deletions only, each of which makes its own call (`UsesFiles`). And a page in a frame was there
before the move, or a fetch has just given it the frame, and it is there to be seen only once its
load has ended (`Origin`).
-/

namespace SecondChance

namespace Ledger

variable {labels : Labels} {l l' l'' : Ledger} {i : FrameNo} {o : Occupant}

/-- Pages may have left their frames, but none has come in, and no load has begun or ended well. -/
structure Thinned (l l' : Ledger) : Prop where
  generation (i : FrameNo) : l'.generation i = l.generation i
  back {i : FrameNo} {o' : Occupant} (ho : l'.occupant? i = some o') :
    ∃ o, l.occupant? i = some o ∧ o'.file = o.file ∧ o'.page = o.page ∧
      (o'.io = .busy .load ↔ o.io = .busy .load)

namespace Thinned

theorem refl (l : Ledger) : l.Thinned l := ⟨fun _ => rfl, fun ho => ⟨_, ho, rfl, rfl, Iff.rfl⟩⟩

theorem trans (h : l.Thinned l') (h' : l'.Thinned l'') : l.Thinned l'' where
  generation i := (h'.generation i).trans (h.generation i)
  back ho := by
    obtain ⟨o', ho', hf', hp', hio'⟩ := h'.back ho
    obtain ⟨o, ho, hf, hp, hio⟩ := h.back ho'
    exact ⟨o, ho, hf'.trans hf, hp'.trans hp, hio'.trans hio⟩

theorem eased (h : l.Eased labels l') : l.Thinned l' where
  generation := h.generation
  back ho := by
    obtain ⟨r, hr⟩ := h.before ho
    exact ⟨_, hr, rfl, rfl, Iff.rfl⟩

theorem setOccupant {q : Occupant} (ho : l.occupant? i = some o) (hf : q.file = o.file)
    (hp : q.page = o.page) (hio : q.io = .busy .load ↔ o.io = .busy .load) :
    l.Thinned (l.setOccupant i q) where
  generation j := generation_setOccupant ..
  back {j q'} hq := by
    rw [occupant?_setOccupant (lt_size_of_occupant? ho)] at hq
    split at hq
    · next hj =>
      subst hj
      obtain rfl := Option.some.inj hq
      exact ⟨o, ho, hf, hp, hio⟩
    · exact ⟨q', hq, rfl, rfl, Iff.rfl⟩

theorem vacate (ho : l.occupant? i = some o) (k : PageKey) : l.Thinned (l.vacate i k) where
  generation j := generation_vacate ..
  back {j q} hq := by
    rw [occupant?_vacate (lt_size_of_occupant? ho)] at hq
    split at hq
    · cases hq
    · exact ⟨q, hq, rfl, rfl, Iff.rfl⟩

theorem claimed (ho : l.occupant? i = some o) (hio : o.io = .idle) :
    l.Thinned (l.setOccupant i o.claimed) := by
  refine setOccupant ho rfl rfl ?_
  simp [Occupant.claimed, hio]

end Thinned

theorem Expels.thinned {key : PageKey} {file : String} {page : PageNo}
    {r : Except PoolError (Option FrameNo)} (h : l.Expels key file page l' r) : l.Thinned l' := by
  cases h with
  | emptied hk ho => exact .vacate ho _
  | _ => exact .refl l

theorem FlushesFile.thinned {id : FileId} {r : Except PoolError Flush}
    (h : l.FlushesFile labels i id l' r) : l.Thinned l' := by
  cases h with
  | claimed ho hid hs => exact .claimed ho (Occupant.standing_eq_available.1 hs).2
  | emptied ho => exact .vacate ho _
  | _ => exact .refl l

theorem FlushesAll.thinned {r : Flush} (h : l.FlushesAll i l' r) : l.Thinned l' := by
  cases h with
  | claimed ho hio => exact .claimed ho hio
  | _ => exact .refl l

theorem Returns.thinned {stay : Stay} {dirty : Bool} {r : Except PoolError Unit}
    (h : l.Returns labels stay dirty l' r) : l.Thinned l' := by
  cases h with
  | ok ho => exact .setOccupant (occupantAt_frame.1 ho).2 rfl rfl Iff.rfl
  | _ => exact .refl l

theorem thinned_unpinPage {file : FileNo} {page : PageNo} {dirty : Bool}
    {r : Except PoolError (Option (FrameNo × Nat))}
    (h : l.unpinPage labels file page dirty = (l', r)) : l.Thinned l' := by
  rcases unpinPage_cases h with ⟨rfl, -⟩ | ⟨i, o, -, ho, -, rfl, -⟩
  · exact .refl _
  · exact .setOccupant ho rfl rfl Iff.rfl

end Ledger

namespace System

variable {s s' : System} {m : Move} {t : TaskId} {fault : Option Fault}

/-- The handle that is given back in a move. -/
def givenBack? (s : System) : Move → Option Handle
  | .release h | .drop h => s.handles.find? h
  | .cancel t =>
    match s.tasks.find? t with
    | some (.access h _ _ _) => s.handles.find? h
    | _ => none
  | _ => none

/-- What a move does: the ledger, the contents of the frames and the files afterwards. -/
inductive Deed (s : System) : Move → Ledger → Array Page → Catalog → Prop
  | rest {m : Move} : Deed s m s.pool.ledger s.pool.buffers s.files
  -- Decisions about frames.
  | fetch {t : TaskId} {fault : Option Fault} {file : FileNo} {page : PageNo} {h : HandleNo}
      {w : Option Stay} {look : Option Ticket} {l : Ledger} {r : Except PoolError Acquisition}
      (ht : s.tasks.find? t = some (.fetch file page h w (.look look)))
      (ha : s.pool.ledger.Acquires s.labels file page l r) :
      Deed s (.resume t fault) l s.pool.buffers s.files
  | expel {t : TaskId} {fault : Option Fault} {file : FileNo} {page : PageNo} {key : PageKey}
      {look : Option Ticket} {l : Ledger} {r : Except PoolError (Option FrameNo)}
      (ht : s.tasks.find? t = some (.expel file page key look))
      (he : s.pool.ledger.Expels key (s.name file) page l r) :
      Deed s (.resume t fault) l s.pool.buffers s.files
  | flushFile {m : Move} {i : FrameNo} {id : FileId} {l : Ledger} {r : Except PoolError Flush}
      (hf : s.pool.ledger.FlushesFile s.labels i id l r) : Deed s m l s.pool.buffers s.files
  | flushAll {m : Move} {i : FrameNo} {l : Ledger} {r : Flush}
      (hf : s.pool.ledger.FlushesAll i l r) : Deed s m l s.pool.buffers s.files
  | giveBack {m : Move} {x : Handle} {l : Ledger} {r : Except PoolError Unit}
      (hr : s.pool.ledger.Returns s.labels x.stay x.dirty l r) (hx : s.givenBack? m = some x) :
      Deed s m l s.pool.buffers s.files
  | unpin {file : FileNo} {page : PageNo} {dirty : Bool} {l : Ledger}
      {r : Except PoolError (Option (FrameNo × Nat))}
      (hr : s.pool.ledger.unpinPage s.labels file page dirty = (l, r)) :
      Deed s (.unpin file page dirty) l s.pool.buffers s.files
  -- Transfers and what can be seen of them before they are over.
  | load {t : TaskId} {fault : Option Fault} {stay : Stay} {files : Catalog}
      {r : Except StoreError Page} (hx : s.transferOf t = some ⟨.load, stay⟩)
      (hr : s.files.read fault stay.file stay.page (.page (s.pool.buffer stay.frame)) =
        (files, r)) :
      Deed s (.resume t fault) (s.pool.ledger.settle s.labels ⟨.load, stay⟩ r.isOk)
        (s.pool.setBuffer stay.frame (r.toOption.getD .zero)).buffers files
  | save {t : TaskId} {fault : Option Fault} {stay : Stay} {files : Catalog}
      {r : Except StoreError Unit} (hx : s.transferOf t = some ⟨.writeBack, stay⟩)
      (hr : s.files.write fault stay.file stay.page (.page (s.pool.buffer stay.frame)) =
        (files, r)) :
      Deed s (.resume t fault) (s.pool.ledger.settle s.labels ⟨.writeBack, stay⟩ r.isOk)
        s.pool.buffers files
  | giveUp {t : TaskId} {x : Transfer} (hx : s.transferOf t = some x) :
      Deed s (.cancel t) (s.pool.ledger.settle s.labels x false) s.pool.buffers s.files
  | fill {t : TaskId} {stay : Stay} (hx : s.transferOf t = some ⟨.load, stay⟩) (content : Page) :
      Deed s (.fill t content) s.pool.ledger (s.pool.setBuffer stay.frame content).buffers s.files
  | strike {t : TaskId} {stay : Stay} (hx : s.transferOf t = some ⟨.writeBack, stay⟩) :
      Deed s (.strike t) s.pool.ledger s.pool.buffers
        (s.files.write none stay.file stay.page (.page (s.pool.buffer stay.frame))).1
  -- Writers.
  | edit {m : Move} {t : TaskId} {h : HandleNo} {stay : Stay} {e₀ e : Page → Page}
      (ht : s.tasks.find? t = some (.access h stay (.write e₀) .inside))
      (hm : s.marks m = [.edited stay e]) :
      Deed s m s.pool.ledger
        (s.pool.setBuffer stay.frame (e (s.pool.buffer stay.frame))).buffers s.files
  -- Other calls of files.
  | allocate {t : TaskId} {fault : Option Fault} {file : FileNo} {h : HandleNo}
      (ht : s.tasks.find? t = some (.allocate file h)) :
      Deed s (.resume t fault) s.pool.ledger s.pool.buffers (s.files.allocate fault file).1
  | delete {t : TaskId} {fault : Option Fault} {file : FileNo} {page : PageNo}
      (ht : s.tasks.find? t = some (.delete file page)) :
      Deed s (.resume t fault) s.pool.ledger s.pool.buffers (s.files.delete fault file page).1

/-- The ledger, the contents of the frames and the files of `s'` are those after some deed of the
move. -/
def Does (s : System) (m : Move) (s' : System) : Prop :=
  s.Deed m s'.pool.ledger s'.pool.buffers s'.files

theorem Does.turnTo (h : s.Does m s') (t : TaskId) (turn : Turn) : s.Does m (s'.turnTo t turn) := by
  cases turn <;> exact h

theorem does_of_eq (hl : s'.pool.ledger = s.pool.ledger) (hb : s'.pool.buffers = s.pool.buffers)
    (hf : s'.files = s.files) : s.Does m s' := by
  rw [Does, hl, hb, hf]
  exact .rest

/-! ### The steps of tasks -/

theorem does_lookForFetch {file : FileNo} {page : PageNo} {h : HandleNo} {w : Option Stay}
    {look : Option Ticket} (hn : 0 < s.pool.ledger.size)
    (ht : s.tasks.find? t = some (.fetch file page h w (.look look))) :
    s.Does (.resume t fault) (s.lookForFetch t file page h w).1 := by
  obtain ⟨l, r, ha⟩ : ∃ l r, s.pool.ledger.acquire s.labels file page w = (l, r) := ⟨_, _, rfl⟩
  have deed : s.Deed (.resume t fault) l s.pool.buffers s.files :=
    .fetch ht (Ledger.acquire_cases hn ha)
  simp only [lookForFetch, ha]
  split <;> next he => obtain ⟨rfl, -⟩ := Prod.mk.inj he; exact deed

theorem does_lookForExpel {file : FileNo} {page : PageNo} {key : PageKey} {look : Option Ticket}
    (ht : s.tasks.find? t = some (.expel file page key look)) :
    s.Does (.resume t fault) (s.lookForExpel file page key).1 := by
  obtain ⟨l, r, he⟩ : ∃ l r, s.pool.ledger.expel key (s.name file) page = (l, r) := ⟨_, _, rfl⟩
  have deed : s.Deed (.resume t fault) l s.pool.buffers s.files := .expel ht (Ledger.expel_cases he)
  simp only [lookForExpel, he]
  split <;> next he => obtain ⟨rfl, -⟩ := Prod.mk.inj he; exact deed

theorem does_lookForFlushFile (file : FileNo) (frame : FrameNo) (written : Nat) :
    s.Does (.resume t fault) (s.lookForFlushFile t file frame written).1 := by
  obtain ⟨l, r, hf⟩ : ∃ l r,
    s.pool.ledger.flushFileAt s.labels frame (s.labels file).id = (l, r) := ⟨_, _, rfl⟩
  have deed : s.Deed (.resume t fault) l s.pool.buffers s.files :=
    .flushFile (Ledger.flushFileAt_cases hf)
  simp only [lookForFlushFile, hf]
  split
  · split <;> next he => obtain ⟨rfl, -⟩ := Prod.mk.inj he; exact deed
  · split <;> exact .rest

theorem does_lookForFlushAll (frame : FrameNo) (files : List FileNo) :
    s.Does (.resume t fault) (s.lookForFlushAll t frame files).1 := by
  obtain ⟨l, r, hf⟩ : ∃ l r, s.pool.ledger.flushAllAt frame = (l, r) := ⟨_, _, rfl⟩
  have deed : s.Deed (.resume t fault) l s.pool.buffers s.files :=
    .flushAll (Ledger.flushAllAt_cases hf)
  simp only [lookForFlushAll, hf]
  split
  · split <;> next he => obtain ⟨rfl, -⟩ := Prod.mk.inj he; exact deed
  · exact .rest

theorem does_finishTransfer {x : Transfer} (hx : s.transferOf t = some x) :
    s.Does (.resume t fault) (s.finishTransfer t x fault).1 := by
  obtain ⟨kind, stay⟩ := x
  cases kind with
  | load =>
    obtain ⟨files, r, hr⟩ : ∃ files r,
      s.files.read fault stay.file stay.page (.page (s.pool.buffer stay.frame)) = (files, r) :=
        ⟨_, _, rfl⟩
    have deed := Deed.load hx hr
    have hl := Catalog.registry_read s.files fault stay.file stay.page
      (.page (s.pool.buffer stay.frame))
    rw [hr] at hl
    simp only [finishTransfer, finishLoad, hr, Catalog.labels_of_registry hl]
    cases r <;> exact deed
  | writeBack =>
    obtain ⟨files, r, hr⟩ : ∃ files r,
      s.files.write fault stay.file stay.page (.page (s.pool.buffer stay.frame)) = (files, r) :=
        ⟨_, _, rfl⟩
    have deed := Deed.save hx hr
    have hl := Catalog.registry_write s.files fault stay.file stay.page
      (.page (s.pool.buffer stay.frame))
    rw [hr] at hl
    simp only [finishTransfer, finishWriteBack, hr, Catalog.labels_of_registry hl]
    cases r <;> exact deed

theorem does_moveForFetch {file : FileNo} {page : PageNo} {h : HandleNo} {x : Transfer}
    (hx : s.transferOf t = some x) :
    s.Does (.resume t fault) (s.moveForFetch t file page h x fault).1 := by
  have done : s.Does (.resume t fault) (s.finishTransfer t x fault).1 := does_finishTransfer hx
  unfold moveForFetch
  split
  · next he => rw [he] at done; exact done
  · next he _ => rw [he] at done; exact done
  · next he _ => rw [he] at done; exact done

theorem does_enter (h : HandleNo) (stay : Stay) (purpose : Access) :
    s.Does m (s.enter t h stay purpose).1 := by
  unfold enter
  split
  · exact .rest
  · exact .rest
  · cases purpose <;> exact .rest

theorem does_use {h : HandleNo} {stay : Stay} {purpose : Access}
    (ht : s.tasks.find? t = some (.access h stay purpose .inside)) :
    s.Does (.resume t fault) (s.use t stay purpose).1 := by
  cases purpose with
  | read => exact .rest
  | write e =>
    have hm : s.marks (.resume t fault) = [.edited stay e] := by
      rw [marks, ht]
      rfl
    exact .edit ht hm

theorem does_advance (hn : 0 < s.pool.ledger.size) {task : Task}
    (ht : s.tasks.find? t = some task) : s.Does (.resume t fault) (s.advance t fault task).1 := by
  have sync (file : FileNo) :
      s.Does (.resume t fault) { s with files := (s.files.sync fault file).1 } :=
    does_of_eq rfl rfl (Catalog.sync_fst ..)
  cases task with
  | allocate file h =>
    have deed : s.Deed (.resume t fault) _ _ _ := .allocate ht
    simp only [advance]
    split <;> next he => rw [he] at deed; exact deed
  | fetch file page h w stage =>
    cases stage with
    | look => exact does_lookForFetch hn ht
    | move x => exact does_moveForFetch (transferOf_eq ht)
  | expel => exact does_lookForExpel ht
  | delete file page =>
    have deed : s.Deed (.resume t fault) _ _ _ := .delete ht
    simp only [advance]
    split <;> next he => rw [he] at deed; exact deed
  | flushFile file frame written stage =>
    cases stage with
    | look => exact does_lookForFlushFile ..
    | move x =>
      have done : s.Does (.resume t fault) (s.finishTransfer t x fault).1 :=
        does_finishTransfer (transferOf_eq ht)
      simp only [advance]
      split <;> next he => rw [he] at done; exact done
  | syncFile file written =>
    have done := sync file
    simp only [advance]
    split <;> next he => rw [he] at done; exact done
  | flushAll frame files stage =>
    cases stage with
    | look => exact does_lookForFlushAll ..
    | move x =>
      have done : s.Does (.resume t fault) (s.finishTransfer t x fault).1 :=
        does_finishTransfer (transferOf_eq ht)
      simp only [advance]
      split <;> next he => rw [he] at done; exact done
  | syncAll n files =>
    cases files with
    | nil => exact .rest
    | cons file remaining =>
      have done := sync file
      simp only [advance]
      split <;> next he => rw [he] at done; exact done
  | access h stay purpose stage =>
    cases stage with
    | latching => exact does_enter ..
    | loading => exact .rest
    | inside => exact does_use ht

/-! ### Moves -/

theorem does_release (hl : s'.pool.ledger = s.pool.ledger) (hb : s'.pool.buffers = s.pool.buffers)
    (hf : s'.files = s.files) (h : HandleNo) (hm : s.givenBack? m = s'.handles.find? h) :
    s.Does m (s'.release h).1 := by
  unfold release
  split
  · exact does_of_eq hl hb hf
  · next x hx =>
    have returns : s'.pool.ledger.Returns s'.labels x.stay x.dirty
        (s'.pool.ledger.unpinStay s'.labels x.stay x.dirty).1
        (s'.pool.ledger.unpinStay s'.labels x.stay x.dirty).2 := Ledger.unpinStay_cases rfl
    show s.Deed m (s'.pool.ledger.unpinStay s'.labels x.stay x.dirty).1 s'.pool.buffers s'.files
    rw [labels, hl, hf] at returns
    rw [labels, hl, hb, hf]
    exact .giveBack returns (hm.trans hx)

theorem does_cancel {task : Task} (ht : s.tasks.find? t = some task) :
    s.Does (.cancel t) (s.cancel t).1 := by
  have hx := transferOf_eq ht
  simp only [cancel, ht]
  cases task with
  | fetch _ _ _ _ stage | flushFile _ _ _ stage | flushAll _ _ stage =>
    cases stage with
    | look => exact .rest
    | move x => exact .giveUp hx
  | access h stay purpose stage =>
    have hm : s.givenBack? (.cancel t) = s.handles.find? h := by simp only [givenBack?, ht]
    simp only [drop_fst]
    apply does_release <;> cases stage <;> first | exact hm | rfl
  | _ => exact .rest

/-- Every permitted move does a deed. -/
theorem does_after (hn : 0 < s.pool.ledger.size) (hp : s.Permits m) : s.Does m (s.after m) := by
  cases m with
  | begin t op => cases op <;> exact .rest
  | resume t fault =>
    obtain ⟨task, ht, -⟩ := isReady_iff.1 hp
    rw [after, resume_fst ht]
    exact (does_advance hn ht).turnTo t _
  | cancel t =>
    obtain ⟨task, ht, -⟩ := hp
    exact does_cancel ht
  | abandon t =>
    obtain ⟨h, stay, purpose, stage, ht⟩ := hp
    simp only [after, abandon, ht]
    cases stage <;> exact .rest
  | markDirty | detach => exact .rest
  | release h => exact does_release rfl rfl rfl h rfl
  | drop h =>
    rw [after, drop_fst]
    exact does_release rfl rfl rfl h rfl
  | unpin file page dirty =>
    obtain ⟨l, r, hr⟩ : ∃ l r, s.pool.ledger.unpinPage s.labels file page dirty = (l, r) :=
      ⟨_, _, rfl⟩
    have deed : s.Deed (.unpin file page dirty) l s.pool.buffers s.files := .unpin hr
    simp only [after, System.unpin, hr]
    split <;> next he => obtain ⟨rfl, -⟩ := Prod.mk.inj he; exact deed
  | edit t e =>
    obtain ⟨h, stay, e₀, ht⟩ := hp
    have hm : s.marks (.edit t e) = [.edited stay e] := by simp only [marks, ht]
    simp only [after, edit, ht]
    exact .edit ht hm
  | fill t content =>
    obtain ⟨-, stay, hx⟩ := hp
    simp only [after, fill, hx]
    exact .fill hx content
  | strike t =>
    obtain ⟨-, stay, hx⟩ := hp
    simp only [after, strike, hx]
    exact .strike hx

/-! ### Calls to files -/

/-- The transfer whose call is made in a move, is under way in it or is given up in it. -/
def called? (s : System) : Move → Option Transfer
  | .resume t _ | .cancel t | .fill t _ | .strike t => s.transferOf t
  | _ => none

/-- What a move does to the files: it leaves them as they are, or makes one call. Pages are read and
written by the calls of transfers, and no other calls change a file but those of tasks that allocate
or delete a page. -/
inductive UsesFiles (s : System) : Move → Catalog → Prop
  | leaves (m : Move) : UsesFiles s m s.files
  | reads {t : TaskId} {stay : Stay} (hx : s.transferOf t = some ⟨.load, stay⟩)
      (fault : Option Fault) :
      UsesFiles s (.resume t fault)
        (s.files.read fault stay.file stay.page (.page (s.pool.buffer stay.frame))).1
  | writes {t : TaskId} {stay : Stay} (hx : s.transferOf t = some ⟨.writeBack, stay⟩)
      (fault : Option Fault) :
      UsesFiles s (.resume t fault)
        (s.files.write fault stay.file stay.page (.page (s.pool.buffer stay.frame))).1
  -- The write has reached the file and is not over.
  | strikes {t : TaskId} {stay : Stay} (hx : s.transferOf t = some ⟨.writeBack, stay⟩) :
      UsesFiles s (.strike t)
        (s.files.write none stay.file stay.page (.page (s.pool.buffer stay.frame))).1
  | allocates {t : TaskId} {file : FileNo} {h : HandleNo}
      (ht : s.tasks.find? t = some (.allocate file h)) (fault : Option Fault) :
      UsesFiles s (.resume t fault) (s.files.allocate fault file).1
  | deletes {t : TaskId} {file : FileNo} {page : PageNo}
      (ht : s.tasks.find? t = some (.delete file page)) (fault : Option Fault) :
      UsesFiles s (.resume t fault) (s.files.delete fault file page).1

theorem Deed.usesFiles {l : Ledger} {buffers : Array Page} {files : Catalog}
    (d : s.Deed m l buffers files) : s.UsesFiles m files := by
  cases d with
  | @load t fault stay _ _ hx hr =>
    have reads := UsesFiles.reads hx fault
    rwa [hr] at reads
  | @save t fault stay _ _ hx hr =>
    have writes := UsesFiles.writes hx fault
    rwa [hr] at writes
  | strike hx => exact .strikes hx
  | allocate ht => exact .allocates ht _
  | delete ht => exact .deletes ht _
  | rest | fetch | expel | flushFile | flushAll | giveBack | unpin | giveUp | fill | edit =>
    exact .leaves _

theorem usesFiles_after (hn : 0 < s.pool.ledger.size) (hp : s.Permits m) :
    s.UsesFiles m (s.after m).files := (does_after hn hp).usesFiles

/-- A move that makes no call of a transfer leaves the files as they are, unless its task allocates
a page or deletes one. -/
theorem UsesFiles.of_uncalled {files : Catalog} (h : s.UsesFiles m files)
    (hc : s.called? m = none) : files = s.files ∨ ∃ t fault, m = .resume t fault ∧
      ((∃ file k, s.tasks.find? t = some (.allocate file k) ∧
          files = (s.files.allocate fault file).1) ∨
        ∃ file page, s.tasks.find? t = some (.delete file page) ∧
          files = (s.files.delete fault file page).1) := by
  cases h with
  | leaves => exact .inl rfl
  | reads hx | writes hx | strikes hx => exact nomatch hc.symm.trans hx
  | @allocates t file k ht fault => exact .inr ⟨t, fault, rfl, .inl ⟨file, k, ht, rfl⟩⟩
  | @deletes t file page ht fault => exact .inr ⟨t, fault, rfl, .inr ⟨file, page, ht, rfl⟩⟩

/-! ### Where pages in frames come from -/

/-- Where the page comes from that a frame has after a move. -/
inductive Origin (s : System) (m : Move) (l' : Ledger) (buffers : Array Page) (i : FrameNo)
    (o' : Occupant) : Prop
  /-- It was there before. -/
  | stayed {o : Occupant} (ho : s.pool.ledger.occupant? i = some o) (hf : o'.file = o.file)
      (hp : o'.page = o.page) (hg : l'.generation i = s.pool.ledger.generation i)
      (hio : o'.io = .busy .load ↔ o.io = .busy .load)
  /-- It was there before, and its load has ended well. -/
  | loaded {t : TaskId} {fault : Option Fault} {stay : Stay} {files : Catalog} {q : Page}
      (hm : m = .resume t fault) (hx : s.transferOf t = some ⟨.load, stay⟩)
      (hr : s.files.read fault stay.file stay.page (.page (s.pool.buffer i)) = (files, .ok q))
      (hi : stay.frame = i) (hs : l'.stayOf i o' = stay)
      (hg : l'.generation i = s.pool.ledger.generation i)
      (hb : buffers = (s.pool.setBuffer i q).buffers)
  /-- A fetch that found it nowhere has given it the frame. -/
  | arrived {t : TaskId} {fault : Option Fault} {h : HandleNo} {w : Option Stay}
      {look : Option Ticket} (hm : m = .resume t fault)
      (ht : s.tasks.find? t = some (.fetch o'.file o'.page h w (.look look)))
      (hk : s.pool.ledger.table.find? (s.labels.key o'.file o'.page) = none)
      (hg : l'.generation i = s.pool.ledger.generation i + 1) (hio : o'.io = .busy .load)

theorem origin_of_thinned {l' : Ledger} {buffers : Array Page} {i : FrameNo} {o' : Occupant}
    (h : s.pool.ledger.Thinned l') (ho : l'.occupant? i = some o') :
    s.Origin m l' buffers i o' := by
  obtain ⟨o, ho, hf, hp, hio⟩ := h.back ho
  exact .stayed ho hf hp (h.generation i) hio

theorem Regular.thinned_settle (hs : s.Regular) {x : Transfer} (hx : s.transferOf t = some x)
    {ok : Bool} (h : ok = true → x.kind = .writeBack) :
    s.pool.ledger.Thinned (s.pool.ledger.settle s.labels x ok) := by
  obtain ⟨kind, stay⟩ := x
  obtain ⟨o, hat, -, ho, hio⟩ := hs.seat hx
  cases ok with
  | true =>
    obtain rfl : kind = .writeBack := h rfl
    rw [Ledger.settle_succeeded hat hio]
    refine .setOccupant ho rfl rfl ?_
    simp [hio]
  | false =>
    cases kind with
    | load =>
      rw [Ledger.settle_load_failed hat hio]
      exact .vacate ho _
    | writeBack =>
      rw [Ledger.settle_writeBack_failed hat hio]
      refine .setOccupant ho rfl rfl ?_
      simp [hio]

theorem origin_of_loaded (hs : s.Regular) {stay : Stay} {files : Catalog} {q : Page} {i : FrameNo}
    {o' : Occupant} (hx : s.transferOf t = some ⟨.load, stay⟩)
    (hr : s.files.read fault stay.file stay.page (.page (s.pool.buffer stay.frame)) =
      (files, .ok q))
    (ho' : (s.pool.ledger.settle s.labels ⟨.load, stay⟩ true).occupant? i = some o') :
    s.Origin (.resume t fault) (s.pool.ledger.settle s.labels ⟨.load, stay⟩ true)
      (s.pool.setBuffer stay.frame q).buffers i o' := by
  obtain ⟨o, hat, hio, hf, hp⟩ := hs.escorted.occupantAt hx
  obtain ⟨hg, ho⟩ := Ledger.occupantAt_frame.1 hat
  rw [Ledger.settle_succeeded hat hio] at ho' ⊢
  have generation : (s.pool.ledger.setOccupant stay.frame { o with io := .idle }).generation i =
    s.pool.ledger.generation i := Ledger.generation_setOccupant ..
  rw [Ledger.occupant?_setOccupant (Ledger.lt_size_of_occupant? ho)] at ho'
  split at ho'
  · next hi =>
    subst hi
    obtain rfl := Option.some.inj ho'
    refine .loaded rfl hx hr rfl ?_ generation rfl
    rw [Ledger.stayOf_setOccupant, Ledger.stayOf, hf, hp, ← Ledger.generation, hg]
  · exact .stayed ho' rfl rfl generation Iff.rfl

/-- A page that has been given a frame was not there, and whoever else has one had it before. -/
theorem origin_of_acquired {file : FileNo} {page : PageNo} {h : HandleNo} {w : Option Stay}
    {look : Option Ticket} {l' : Ledger} {buffers : Array Page} {i : FrameNo} {o' : Occupant}
    {r : Except PoolError Acquisition}
    (ht : s.tasks.find? t = some (.fetch file page h w (.look look)))
    (ha : s.pool.ledger.Acquires s.labels file page l' r) (ho' : l'.occupant? i = some o') :
    s.Origin (.resume t fault) l' buffers i o' := by
  cases ha with
  | hit hk ho => exact origin_of_thinned (.setOccupant ho rfl rfl Iff.rfl) ho'
  | astray => exact origin_of_thinned (.refl _) ho'
  | wait hk he | exhausted hk he => exact origin_of_thinned (.eased he) ho'
  | writeBack hk he ho hst =>
    have claimed := Ledger.Thinned.claimed ho (Occupant.standing_eq_available.1 hst).2
    exact origin_of_thinned (.trans (.eased he) claimed) ho'
  | @load l j _ hk he hj =>
    rw [Ledger.occupant?_install hj] at ho'
    have generation := Ledger.generation_install hj (s.labels.key file page) file page i
    rw [he.generation] at generation
    split at ho'
    · next hi =>
      obtain rfl := Option.some.inj ho'
      rw [if_pos hi] at generation
      exact .arrived rfl ht hk generation rfl
    · next hi =>
      rw [if_neg hi] at generation
      obtain ⟨r, hr⟩ := he.before ho'
      exact .stayed hr rfl rfl generation Iff.rfl

/-- A page is in a frame after a move because it was there before, or has just been loaded there, or
has just been given the frame. -/
theorem Deed.origin {l' : Ledger} {buffers : Array Page} {files : Catalog}
    (d : s.Deed m l' buffers files) (hs : s.Regular) {i : FrameNo} {o' : Occupant}
    (ho' : l'.occupant? i = some o') : s.Origin m l' buffers i o' := by
  cases d with
  | rest | fill | strike | edit | allocate | delete => exact origin_of_thinned (.refl _) ho'
  | fetch ht ha => exact origin_of_acquired ht ha ho'
  | expel ht he => exact origin_of_thinned he.thinned ho'
  | flushFile hf => exact origin_of_thinned hf.thinned ho'
  | flushAll hf => exact origin_of_thinned hf.thinned ho'
  | giveBack hr => exact origin_of_thinned hr.thinned ho'
  | unpin hr => exact origin_of_thinned (Ledger.thinned_unpinPage hr) ho'
  | save hx => exact origin_of_thinned (hs.thinned_settle hx fun _ => rfl) ho'
  | giveUp hx => exact origin_of_thinned (hs.thinned_settle hx nofun) ho'
  | @load t fault stay files r hx hr =>
    cases r with
    | error => exact origin_of_thinned (hs.thinned_settle hx nofun) ho'
    | ok => exact origin_of_loaded hs hx hr ho'

end System

end SecondChance
