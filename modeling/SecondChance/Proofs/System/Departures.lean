import SecondChance.Proofs.System.Regular

/-!
How a page can leave its frame.

In one move a page stays where it is, or its load has failed, or it was a page that nobody had and
with which nothing was under way; and then it was clean, or it was disposed of on purpose. First
each decision about frames is gone through, and then each move with the decision that it makes.
-/

namespace SecondChance

namespace Ledger

/-- The page that `o` describes is still in frame `i`, in the same stay. -/
def Keeps (l l' : Ledger) (i : FrameNo) (o : Occupant) : Prop :=
  ∃ o', l'.occupant? i = some o' ∧ o'.file = o.file ∧ o'.page = o.page ∧
    l'.generation i = l.generation i

/-- Every page stays unless it is a clean one that nobody has and that is not being moved. -/
def Spares (l l' : Ledger) : Prop :=
  ∀ i o, l.occupant? i = some o → l.Keeps l' i o ∨ (o.standing = .available ∧ o.dirty = false)

variable {labels : Labels} {l m l' : Ledger} {i : FrameNo} {o : Occupant}

theorem Keeps.of_eq (h : l'.occupant? i = l.occupant? i) (hg : l'.generation i = l.generation i)
    (ho : l.occupant? i = some o) : l.Keeps l' i o := ⟨o, h.trans ho, rfl, rfl, hg⟩

theorem Keeps.refl (ho : l.occupant? i = some o) : l.Keeps l i o := .of_eq rfl rfl ho

theorem keeps_setOccupant {j : FrameNo} {p q : Occupant} (hp : l.occupant? j = some p)
    (hf : q.file = p.file) (hg : q.page = p.page) (ho : l.occupant? i = some o) :
    l.Keeps (l.setOccupant j q) i o := by
  by_cases hj : j = i
  · subst hj
    rw [hp] at ho
    obtain rfl := Option.some.inj ho
    refine ⟨q, ?_, hf, hg, generation_setOccupant ..⟩
    rw [occupant?_setOccupant (lt_size_of_occupant? hp), if_pos rfl]
  · refine .of_eq ?_ (generation_setOccupant ..) ho
    rw [occupant?_setOccupant (lt_size_of_occupant? hp), if_neg hj]

theorem keeps_vacate {j : FrameNo} {p : Occupant} (hp : l.occupant? j = some p) (hj : j ≠ i)
    (k : PageKey) (ho : l.occupant? i = some o) : l.Keeps (l.vacate j k) i o := by
  refine .of_eq ?_ (generation_vacate ..) ho
  rw [occupant?_vacate (lt_size_of_occupant? hp), if_neg hj]

theorem keeps_install {j : FrameNo} (hi : j < l.size) (hj : l.occupant? j = none) (k : PageKey)
    (file : FileNo) (page : PageNo) (ho : l.occupant? i = some o) :
    l.Keeps (l.install j k file page) i o := by
  have hne : j ≠ i := by
    rintro rfl
    rw [hj] at ho
    cases ho
  refine .of_eq ?_ ?_ ho
  · rw [occupant?_install hi, if_neg hne]
  · rw [generation_install hi, if_neg hne, Nat.add_zero]

theorem Eased.spares (h : l.Eased labels m)
    (hk : ∀ i o, m.occupant? i = some o → m.Keeps l' i o) : l.Spares l' := by
  intro i o ho
  obtain ⟨hg, ⟨r, hr⟩ | hleft⟩ := h.after ho
  · obtain ⟨o', ho', hf, hp, hg'⟩ := hk i _ hr
    exact .inl ⟨o', ho', hf, hp, hg'.trans hg⟩
  · exact .inr hleft

theorem Spares.refl (l : Ledger) : l.Spares l := fun _ _ ho => .inl (.refl ho)

theorem spares_of_keeps (hk : ∀ i o, l.occupant? i = some o → l.Keeps l' i o) : l.Spares l' :=
  fun i o ho => .inl (hk i o ho)

theorem Acquires.spares {file : FileNo} {page : PageNo} {r : Except PoolError Acquisition}
    (h : l.Acquires labels file page l' r) : l.Spares l' := by
  cases h with
  | hit hk ho => exact spares_of_keeps fun _ _ => keeps_setOccupant ho rfl rfl
  | astray => exact .refl l
  | load d hk hm hi ho => exact hm.spares fun _ _ => keeps_install hi ho _ _ _
  | writeBack hk hm ho => exact hm.spares fun _ _ => keeps_setOccupant ho rfl rfl
  | wait hk hm => exact hm.spares fun _ _ => .refl
  | exhausted hk hm => exact hm.spares fun _ _ => .refl

theorem FlushesFile.spares {id : FileId} {j : FrameNo} {r : Except PoolError Flush}
    (h : l.FlushesFile labels j id l' r) : l.Spares l' := by
  cases h with
  | claimed ho => exact spares_of_keeps fun _ _ => keeps_setOccupant ho rfl rfl
  | emptied ho hid hs hd =>
    exact (Eased.vacated (.refl labels l) ho hs hd).spares fun _ _ => .refl
  | _ => exact .refl l

theorem FlushesAll.spares {j : FrameNo} {r : Flush} (h : l.FlushesAll j l' r) : l.Spares l' := by
  cases h with
  | claimed ho => exact spares_of_keeps fun _ _ => keeps_setOccupant ho rfl rfl
  | _ => exact .refl l

theorem Expels.keeps {key : PageKey} {file : String} {page : PageNo}
    {r : Except PoolError (Option FrameNo)} (hc : l.Consistent labels)
    (h : l.Expels key file page l' r) (ho : l.occupant? i = some o) :
    l.Keeps l' i o ∨ (o.standing = .available ∧ o.key labels = key) := by
  cases h with
  | @emptied j p hk hp hs =>
    by_cases hj : j = i
    · subst hj
      obtain ⟨p', hp', hkey⟩ := hc.occupant?_of_find? hk
      rw [ho] at hp hp'
      obtain rfl := Option.some.inj hp
      obtain rfl := Option.some.inj hp'
      exact .inr ⟨hs, hkey⟩
    · exact .inl (keeps_vacate hp hj key ho)
  | _ => exact .inl (.refl ho)

theorem Returns.keeps {stay : Stay} {dirty : Bool} {r : Except PoolError Unit}
    (h : l.Returns labels stay dirty l' r) (ho : l.occupant? i = some o) : l.Keeps l' i o := by
  cases h with
  | ok hp => exact keeps_setOccupant (occupantAt_frame.1 hp).2 rfl rfl ho
  | _ => exact .refl ho

theorem Escorted.keeps_settle {carry : TaskId → Option Transfer} (h : l.Escorted carry) {t : TaskId}
    {x : Transfer} (hx : carry t = some x) (ok : Bool) (ho : l.occupant? i = some o) :
    l.Keeps (l.settle labels x ok) i o ∨
      (ok = false ∧ x = ⟨.load, l.stayOf i o⟩ ∧ o.io = .busy .load) := by
  obtain ⟨kind, stay⟩ := x
  obtain ⟨p, hp, hio, hs⟩ := h.seated hx
  have hat : (l.frame stay.frame).occupantAt stay.generation = some p :=
    occupantAt_frame.2 ⟨(congrArg Stay.generation hs).symm, hp⟩
  cases ok with
  | true =>
    rw [settle_succeeded hat hio]
    exact .inl (keeps_setOccupant hp rfl rfl ho)
  | false =>
    cases kind with
    | writeBack =>
      rw [settle_writeBack_failed hat hio]
      exact .inl (keeps_setOccupant hp rfl rfl ho)
    | load =>
      rw [settle_load_failed hat hio]
      by_cases hi : stay.frame = i
      · subst hi
        rw [ho] at hp
        obtain rfl := Option.some.inj hp
        exact .inr ⟨rfl, congrArg _ hs, hio⟩
      · exact .inl (keeps_vacate hp hi _ ho)

end Ledger

namespace System

variable {s : System} {t : TaskId} {fault : Option Fault} {i : FrameNo} {o : Occupant}

/-- The move makes the load of a stay fail, or gives it up. -/
def LosesLoad (s : System) (stay : Stay) : Move → Prop
  | .resume t fault => s.transferOf t = some ⟨.load, stay⟩ ∧
    ∃ e, (s.files.read fault stay.file stay.page (.page (s.pool.buffer stay.frame))).2 = .error e
  | .cancel t => s.transferOf t = some ⟨.load, stay⟩
  | _ => False

/-- The move is a step of disposing of a page, which is known by its key. -/
def Disposes (s : System) (key : PageKey) : Move → Prop
  | .resume t _ => ∃ file page look, s.tasks.find? t = some (.expel file page key look) ∧
    key = s.labels.key file page
  | _ => False

/-! ### The ledger after each step -/

theorem ledger_turnTo (s : System) (t : TaskId) (turn : Turn) :
    (s.turnTo t turn).pool.ledger = s.pool.ledger := by
  cases turn <;> rfl

theorem ledger_lookForFetch (s : System) (t : TaskId) (file : FileNo) (page : PageNo) (h : HandleNo)
    (w : Option Stay) : (s.lookForFetch t file page h w).1.pool.ledger =
      (s.pool.ledger.acquire s.labels file page w).1 := by
  unfold lookForFetch
  split <;> next ha => rw [ha]; rfl

theorem ledger_lookForExpel (s : System) (file : FileNo) (page : PageNo) (key : PageKey) :
    (s.lookForExpel file page key).1.pool.ledger =
      (s.pool.ledger.expel key (s.name file) page).1 := by
  unfold lookForExpel
  split <;> next ha => rw [ha]; rfl

theorem ledger_lookForFlushFile (s : System) (t : TaskId) (file : FileNo) (frame : FrameNo)
    (written : Nat) : (s.lookForFlushFile t file frame written).1.pool.ledger = s.pool.ledger ∨
      (s.lookForFlushFile t file frame written).1.pool.ledger =
        (s.pool.ledger.flushFileAt s.labels frame (s.labels file).id).1 := by
  unfold lookForFlushFile
  split
  · split <;> next ha => rw [ha]; exact .inr rfl
  · split <;> exact .inl rfl

theorem ledger_lookForFlushAll (s : System) (t : TaskId) (frame : FrameNo) (files : List FileNo) :
    (s.lookForFlushAll t frame files).1.pool.ledger = s.pool.ledger ∨
      (s.lookForFlushAll t frame files).1.pool.ledger = (s.pool.ledger.flushAllAt frame).1 := by
  unfold lookForFlushAll
  split
  · split <;> next ha => rw [ha]; exact .inr rfl
  · exact .inl rfl

theorem ledger_finishLoad (s : System) (t : TaskId) (stay : Stay) (fault : Option Fault) :
    (s.finishTransfer t ⟨.load, stay⟩ fault).1.pool.ledger =
      s.pool.ledger.settle s.labels ⟨.load, stay⟩
        (s.files.read fault stay.file stay.page (.page (s.pool.buffer stay.frame))).2.isOk := by
  have hl := Catalog.registry_read s.files fault stay.file stay.page
    (.page (s.pool.buffer stay.frame))
  simp only [finishTransfer, finishLoad]
  generalize s.files.read fault stay.file stay.page _ = p at hl ⊢
  obtain ⟨files, r⟩ := p
  cases r <;> simp only [Catalog.labels_of_registry hl] <;> rfl

theorem ledger_finishWriteBack (s : System) (t : TaskId) (stay : Stay) (fault : Option Fault) :
    ∃ ok, (s.finishTransfer t ⟨.writeBack, stay⟩ fault).1.pool.ledger =
      s.pool.ledger.settle s.labels ⟨.writeBack, stay⟩ ok := by
  have hl := Catalog.registry_write s.files fault stay.file stay.page
    (.page (s.pool.buffer stay.frame))
  simp only [finishTransfer, finishWriteBack]
  generalize s.files.write fault stay.file stay.page _ = p at hl ⊢
  obtain ⟨files, r⟩ := p
  refine ⟨r.isOk, ?_⟩
  cases r <;> simp only [Catalog.labels_of_registry hl] <;> rfl

theorem ledger_moveForFetch (s : System) (t : TaskId) (file : FileNo) (page : PageNo) (h : HandleNo)
    (x : Transfer) (fault : Option Fault) : (s.moveForFetch t file page h x fault).1.pool.ledger =
      (s.finishTransfer t x fault).1.pool.ledger := by
  unfold moveForFetch
  split
  · next hr => rw [hr]
  · next hr _ => rw [hr]
  · next hr _ =>
    rw [hr]
    rfl

theorem ledger_release_congr {s' : System} (hh : s'.handles = s.handles)
    (hl : s'.pool.ledger = s.pool.ledger) (hf : s'.files = s.files) (h : HandleNo) :
    (s'.release h).1.pool.ledger = (s.release h).1.pool.ledger := by
  unfold release labels
  rw [hh, hl, hf]
  split
  · exact hl
  · rfl

theorem ledger_release (s : System) (h : HandleNo) :
    (s.release h).1.pool.ledger = s.pool.ledger ∨
      ∃ stay dirty r, s.pool.ledger.Returns s.labels stay dirty (s.release h).1.pool.ledger r := by
  unfold release
  split
  · exact .inl rfl
  · exact .inr ⟨_, _, _, Ledger.unpinStay_cases rfl⟩

/-! ### What a move does to one page -/

def Fares (s : System) (m : Move) (i : FrameNo) (o : Occupant) : Prop :=
  s.pool.ledger.Keeps (s.after m).pool.ledger i o ∨
    (o.io = .busy .load ∧ s.LosesLoad (s.pool.ledger.stayOf i o) m) ∨
    (o.standing = .available ∧ (o.dirty = false ∨ s.Disposes (o.key s.labels) m))

theorem fares_of_spares {m : Move} (ho : s.pool.ledger.occupant? i = some o)
    (h : s.pool.ledger.Spares (s.after m).pool.ledger) : s.Fares m i o := by
  rcases h i o ho with hk | ⟨hs, hd⟩
  · exact .inl hk
  · exact .inr (.inr ⟨hs, .inl hd⟩)

theorem fares_of_ledger_eq {m : Move} (ho : s.pool.ledger.occupant? i = some o)
    (h : (s.after m).pool.ledger = s.pool.ledger) : s.Fares m i o := by
  refine .inl ?_
  rw [h]
  exact .refl ho

theorem ledger_resume {task : Task} (ht : s.tasks.find? t = some task) (fault : Option Fault) :
    (s.after (.resume t fault)).pool.ledger = (s.advance t fault task).1.pool.ledger := by
  rw [after, resume_fst ht, ledger_turnTo]

theorem fares_move (hs : s.Regular) {x : Transfer} (hx : s.transferOf t = some x)
    (ho : s.pool.ledger.occupant? i = some o)
    (hl : (s.after (.resume t fault)).pool.ledger = (s.finishTransfer t x fault).1.pool.ledger) :
    s.Fares (.resume t fault) i o := by
  obtain ⟨kind, stay⟩ := x
  cases kind with
  | load =>
    rw [ledger_finishLoad] at hl
    rcases hs.escorted.keeps_settle hx _ ho with hk | ⟨hr, hst, hio⟩
    · rw [← hl] at hk
      exact .inl hk
    · obtain rfl : stay = s.pool.ledger.stayOf i o := congrArg Transfer.stay hst
      refine .inr (.inl ⟨hio, hx, ?_⟩)
      generalize (s.files.read fault _ _ _).2 = r at hr ⊢
      cases r with
      | ok => cases hr
      | error e => exact ⟨e, rfl⟩
  | writeBack =>
    obtain ⟨ok, hw⟩ := s.ledger_finishWriteBack t stay fault
    rw [hw] at hl
    rcases hs.escorted.keeps_settle hx ok ho with hk | ⟨-, hst, -⟩
    · rw [← hl] at hk
      exact .inl hk
    · cases hst

theorem fares_resume (hs : s.Regular) {task : Task} (ht : s.tasks.find? t = some task)
    (ho : s.pool.ledger.occupant? i = some o) : s.Fares (.resume t fault) i o := by
  have hl := ledger_resume ht fault
  cases task with
  | allocate file h =>
    refine fares_of_ledger_eq ho (hl.trans ?_)
    simp only [advance]
    split <;> rfl
  | fetch file page h w stage =>
    cases stage with
    | look =>
      refine fares_of_spares ho ?_
      rw [hl, advance, ledger_lookForFetch]
      exact (Ledger.acquire_cases hs.consistent.size_pos rfl).spares
    | move x => exact fares_move hs (transferOf_eq ht) ho (hl.trans (ledger_moveForFetch ..))
  | expel file page key look =>
    obtain ⟨l, r, he⟩ : ∃ l r, s.pool.ledger.expel key (s.name file) page = (l, r) := ⟨_, _, rfl⟩
    rw [advance, ledger_lookForExpel, he] at hl
    rcases (Ledger.expel_cases he).keeps hs.consistent ho with hk | ⟨ha, rfl⟩
    · exact .inl (hl ▸ hk)
    · exact .inr (.inr ⟨ha, .inr ⟨file, page, look, ht, hs.orderly.proper ht⟩⟩)
  | delete file page =>
    refine fares_of_ledger_eq ho (hl.trans ?_)
    simp only [advance]
    split <;> rfl
  | flushFile file frame written stage =>
    cases stage with
    | look =>
      rcases s.ledger_lookForFlushFile t file frame written with h | h
      · exact fares_of_ledger_eq ho (hl.trans h)
      · refine fares_of_spares ho ?_
        rw [hl, advance, h]
        exact (Ledger.flushFileAt_cases rfl).spares
    | move x =>
      refine fares_move hs (transferOf_eq ht) ho (hl.trans ?_)
      simp only [advance]
      split <;> next hr => rw [hr]
  | syncFile file written =>
    refine fares_of_ledger_eq ho (hl.trans ?_)
    simp only [advance]
    split <;> rfl
  | flushAll frame files stage =>
    cases stage with
    | look =>
      rcases s.ledger_lookForFlushAll t frame files with h | h
      · exact fares_of_ledger_eq ho (hl.trans h)
      · refine fares_of_spares ho ?_
        rw [hl, advance, h]
        exact (Ledger.flushAllAt_cases rfl).spares
    | move x =>
      refine fares_move hs (transferOf_eq ht) ho (hl.trans ?_)
      simp only [advance]
      split <;> next hr => rw [hr]
  | syncAll n files =>
    refine fares_of_ledger_eq ho (hl.trans ?_)
    cases files with
    | nil => rfl
    | cons =>
      simp only [advance]
      split <;> rfl
  | access h stay purpose stage =>
    refine fares_of_ledger_eq ho (hl.trans ?_)
    cases stage with
    | latching =>
      simp only [advance, enter]
      split
      · rfl
      · rfl
      · cases purpose <;> rfl
    | loading => rfl
    | inside => cases purpose <;> rfl

theorem fares_release {m : Move} {h : HandleNo} (ho : s.pool.ledger.occupant? i = some o)
    (hl : (s.after m).pool.ledger = (s.release h).1.pool.ledger) : s.Fares m i o := by
  rcases s.ledger_release h with hr | ⟨stay, dirty, r, hr⟩
  · exact fares_of_ledger_eq ho (hl.trans hr)
  · rw [← hl] at hr
    exact .inl (hr.keeps ho)

theorem fares_cancel (hs : s.Regular) {task : Task} (ht : s.tasks.find? t = some task)
    (ho : s.pool.ledger.occupant? i = some o) : s.Fares (.cancel t) i o := by
  have moving {x : Transfer} (hx : s.transferOf t = some x)
      (hl : (s.after (.cancel t)).pool.ledger = s.pool.ledger.settle s.labels x false) :
      s.Fares (.cancel t) i o := by
    rcases hs.escorted.keeps_settle hx false ho with hk | ⟨-, rfl, hio⟩
    · rw [← hl] at hk
      exact .inl hk
    · exact .inr (.inl ⟨hio, hx⟩)
  have hx := transferOf_eq ht
  cases task with
  | fetch _ _ _ _ stage | flushFile _ _ _ stage | flushAll _ _ stage =>
    cases stage with
    | look =>
      refine fares_of_ledger_eq ho ?_
      simp only [after, cancel, ht]
      rfl
    | move x =>
      refine moving hx ?_
      simp only [after, cancel, ht]
      rfl
  | access h stay purpose stage =>
    have hd : (s.after (.cancel t)).pool.ledger = (s.release h).1.pool.ledger := by
      simp only [after, cancel, ht, drop_fst]
      apply ledger_release_congr <;> cases stage <;> rfl
    exact fares_release ho hd
  | _ =>
    refine fares_of_ledger_eq ho ?_
    simp only [after, cancel, ht]
    rfl

theorem fares (hs : s.Regular) {m : Move} (hp : s.Permits m)
    (ho : s.pool.ledger.occupant? i = some o) : s.Fares m i o := by
  cases m with
  | begin t op => cases op <;> exact fares_of_ledger_eq ho rfl
  | resume t fault =>
    obtain ⟨task, ht, -⟩ := isReady_iff.1 hp
    exact fares_resume hs ht ho
  | cancel t =>
    obtain ⟨task, ht, -⟩ := hp
    exact fares_cancel hs ht ho
  | abandon t =>
    obtain ⟨h, stay, purpose, stage, ht⟩ := hp
    refine fares_of_ledger_eq ho ?_
    simp only [after, abandon, ht]
    cases stage <;> rfl
  | release h => exact fares_release ho rfl
  | drop h => exact fares_release ho (congrArg (fun s => s.pool.ledger) (s.drop_fst h))
  | unpin file page dirty =>
    obtain ⟨l, r, hr⟩ : ∃ l r, s.pool.ledger.unpinPage s.labels file page dirty = (l, r) :=
      ⟨_, _, rfl⟩
    have hl : (s.after (.unpin file page dirty)).pool.ledger = l := by
      simp only [after, System.unpin, hr]
      split <;> next he => obtain ⟨rfl, -⟩ := Prod.mk.inj he; rfl
    rcases Ledger.unpinPage_cases hr with ⟨rfl, -⟩ | ⟨j, p, -, hq, -, rfl, -⟩
    · exact fares_of_ledger_eq ho hl
    · refine .inl ?_
      rw [hl]
      exact Ledger.keeps_setOccupant hq rfl rfl ho
  | edit t e =>
    obtain ⟨h, stay, e₀, ht⟩ := hp
    refine fares_of_ledger_eq ho ?_
    simp only [after, edit, ht]
    rfl
  | fill t content =>
    obtain ⟨-, stay, hx⟩ := hp
    refine fares_of_ledger_eq ho ?_
    simp only [after, fill, hx]
    rfl
  | strike t =>
    obtain ⟨-, stay, hx⟩ := hp
    refine fares_of_ledger_eq ho ?_
    simp only [after, strike, hx]
  | _ => exact fares_of_ledger_eq ho rfl

end System

/-- In every move of every run a page stays in its frame under its generation, or its load is lost,
or nobody had it, nothing was under way with it, and it was clean or is disposed of. -/
theorem pinned_and_dirty_stay {n : Nat} (hn : 0 < n) (c : Catalog) {h : History} {s : System}
    (run : Reaches (fun _ => True) (.new n c) h s) {m : Move} (hp : s.Permits m) {i : FrameNo}
    {o : Occupant} (ho : s.pool.ledger.occupant? i = some o) :
    (∃ o', (s.after m).pool.ledger.occupant? i = some o' ∧ o'.file = o.file ∧ o'.page = o.page ∧
      (s.after m).pool.ledger.generation i = s.pool.ledger.generation i) ∨
    (o.io = .busy .load ∧ s.LosesLoad (s.pool.ledger.stayOf i o) m) ∨
    (o.pins = 0 ∧ o.io = .idle ∧ (o.dirty = false ∨ s.Disposes (o.key s.labels) m)) := by
  rcases System.fares (run.regular hn) hp ho with hk | hl | ⟨ha, hd⟩
  · exact .inl hk
  · exact .inr (.inl hl)
  · obtain ⟨hpins, hio⟩ := Occupant.standing_eq_available.1 ha
    exact .inr (.inr ⟨hpins, hio, hd⟩)

/-- A load that is given up: the page is pinned, and leaves nevertheless. -/
theorem pinned_and_dirty_stay_smallLoading : ∃ h, Reaches (fun _ => True) .small h .smallLoading ∧
    System.smallLoading.Permits (.cancel 0) ∧
    System.smallLoading.LosesLoad ⟨0, 0, 0, 1⟩ (.cancel 0) := by
  obtain ⟨h, run⟩ : ∃ h, Reaches (fun _ => True) .small h .smallLoading :=
    Reaches.smallLoading trivial trivial
  have hp : System.smallLoading.Permits (.cancel 0) := ⟨_, rfl, nofun⟩
  have ho : System.smallLoading.pool.ledger.occupant? 0 = some (.arriving 0 0) := rfl
  refine ⟨h, run, hp, ?_⟩
  rcases pinned_and_dirty_stay Nat.zero_lt_one _ run hp ho with ⟨o, hk, -⟩ | ⟨-, hl⟩ | ⟨hz, -⟩
  · cases hk
  · exact hl
  · cases hz

end SecondChance
