import SecondChance.Proofs.System.Capacity
import SecondChance.Proofs.System.Desk

/-!
Errands at a pool come to what they come to at a desk.

For each errand it is shown what its steps keep until it ends, and that it ends with the result that
it has at a desk. None of this depends on how many frames there are.
-/

namespace SecondChance

/-- The task fetches a page, and when it loads something it is this page. -/
def Task.Fetches (f : FileNo) (p : PageNo) (task : Task) : Prop :=
  ∃ w stage, task = .fetch f p 0 w stage ∧
    ∀ stay, stage = .move ⟨.load, stay⟩ → stay.file = f ∧ stay.page = p

namespace System

variable {s s' : System} {d : Desk} {t : TaskId} {task : Task} {f : FileNo} {p : PageNo}
  {fault : Option Fault}

/-! ### What steps leave alone -/

theorem handles_turnTo (s : System) (t : TaskId) (turn : Turn) :
    (s.turnTo t turn).handles = s.handles := by
  cases turn <;> rfl

theorem handles_after_resume (ht : s.tasks.find? t = some task) (fault : Option Fault) :
    (s.after (.resume t fault)).handles = (s.advance t fault task).1.handles := by
  rw [after, resume_fst ht, handles_turnTo]

theorem Stands.written (h : s.Stands d) {stay : Stay}
    (hx : s.transferOf t = some ⟨.writeBack, stay⟩) :
    ∃ s' events, s.finishTransfer t ⟨.writeBack, stay⟩ none = (s', events, .ok ()) ∧
      s'.handles = s.handles := by
  obtain ⟨ks, mirrors⟩ := h.mirrors
  have written := mirrors.finishWriteBack_ok hx
  have same := s.handles_finishTransfer t ⟨.writeBack, stay⟩ none
  generalize s.finishTransfer t ⟨.writeBack, stay⟩ none = x at written same
  obtain ⟨s', events, r⟩ := x
  obtain rfl : r = .ok () := written
  exact ⟨s', events, rfl, same⟩

/-! ### What operations come to -/

theorem Lends.congr {lent : Option (FileNo × PageNo)} (h : s.Lends lent)
    (handles : s'.handles = s.handles) (ledger : s'.pool.ledger = s.pool.ledger) :
    s'.Lends lent where
  others hk := by rw [handles, h.others hk]
  nothing hl := by rw [handles, h.nothing hl]
  page hl := by
    obtain ⟨x, hx, hf, hp, place⟩ := h.page hl
    exact ⟨x, by rw [handles, hx], hf, hp, by rwa [InPlace, ledger]⟩

theorem Stands.begin {op : Operation} (h : s.Stands d) (possible : s.Permits (.begin t op))
    (hop : ∀ file page, op ≠ .dispose file page) : (s.begin t op).Stands d := by
  obtain ⟨ks, mirrors⟩ := h.mirrors
  refine ⟨⟨ks, mirrors.begin possible hop⟩, h.lends.congr ?_ (ledger_begin s t op)⟩
  cases op <;> rfl

/-- What an operation has come to is what it comes to at a desk. -/
def Concurs (e : Desk × Result) (r : Result) (s : System) : Prop :=
  s.Stands e.1 ∧ r.unplaced = e.2

/-- An errand has come to the same at a pool and at a desk, up to the numbers of frames. -/
structure Agree (x : System × Reply) (y : Desk × Reply) : Prop where
  quiescent : x.1.Quiescent
  stands : x.1.Stands y.1
  reply : x.2.unplaced = y.2

theorem Quiescent.agree {op : Operation} {I : Task → System → Prop} {e : Desk × Result}
    (h : s.Quiescent) (admits : s.Admits op) (first : I (firstTask s.labels op) (s.begin 0 op))
    (step : ∀ {s : System} {task : Task}, s.Alone 0 → s.tasks.find? 0 = some task → I task s →
      Leads I (Concurs e) (s.after (.resume 0 none)) (s.advance 0 none task).2.2) :
    Agree (s.carryOut op) (e.map id .ended) := by
  obtain ⟨r, hr, ⟨stands, unplaced⟩, quiescent⟩ := h.carryOut admits first step
  refine ⟨quiescent, stands, ?_⟩
  rw [hr, Reply.unplaced, unplaced]
  rfl

theorem Leads.mono {I I' : Task → System → Prop} {Q Q' : Result → System → Prop} {turn : Turn}
    (h : Leads I Q s turn) (hI : ∀ {task}, I task s → I' task s) (hQ : ∀ {r}, Q r s → Q' r s) :
    Leads I' Q' s turn := by
  cases turn with
  | goesOn => exact hI h
  | ends => exact hQ h

/-! ### What is found in frames -/

theorem Sound.eq_of_find? {ks : List Mark} (hs : s.Sound ks) (hf : s.hasFile f) {i : FrameNo}
    {o : Occupant} (hk : s.pool.ledger.table.find? (s.labels.key f p) = some i)
    (ho : s.pool.ledger.occupant? i = some o) : o.file = f ∧ o.page = p := by
  obtain ⟨o', ho', key⟩ := hs.regular.consistent.occupant?_of_find? hk
  obtain rfl := Option.some.inj (ho.symm.trans ho')
  exact hs.faithful.distinct.key_inj (hs.faithful.seated.opened ho) hf key

theorem Stands.held (h : s.Stands d) {x : Handle} (hx : s.handles.find? 0 = some x) :
    d.lent = some (x.stay.file, x.stay.page) ∧
      ∃ o, (s.pool.ledger.frame x.stay.frame).occupantAt x.stay.generation = some o ∧
        o.pins ≠ 0 ∧ o.io ≠ .busy .load ∧ o.file = x.stay.file ∧ o.page = x.stay.page := by
  obtain ⟨ks, mirrors⟩ := h.mirrors
  obtain ⟨⟨f, p⟩, hd⟩ : ∃ y, d.lent = some y := by
    rw [← Option.isSome_iff_exists, ← h.lends.isSome_eq, hx]
    rfl
  obtain ⟨y, hy, rfl, rfl, o, hat, hio⟩ := h.lends.page hd
  obtain rfl := Option.some.inj (hx.symm.trans hy)
  have faithful := mirrors.sound.faithful
  exact ⟨hd, o, hat, pins_ne_zero faithful.accounted hx hat, hio, faithful.seated.placed hx hat⟩

theorem Stands.lent_of_pinned (h : s.Stands d) (alone : s.Alone 0)
    (hl : s.transferOf 0 = none) {i : FrameNo} {o : Occupant}
    (ho : s.pool.ledger.occupant? i = some o) (hp : o.pins ≠ 0) :
    d.lent = some (o.file, o.page) := by
  obtain ⟨ks, mirrors⟩ := h.mirrors
  have hs := mirrors.sound
  obtain ⟨k, occupies⟩ := exists_occupies hs.regular hs.faithful.accounted mirrors.undetached
    ⟨o, ho, hp⟩
  cases occupies with
  | loading ht =>
    obtain rfl := alone.eq_of_find? ht
    cases hl.symm.trans (transferOf_eq ht)
  | lent hk hi =>
    obtain rfl : k = 0 :=
      Decidable.byContradiction fun h0 => by cases hk.symm.trans (h.lends.others h0)
    subst hi
    obtain ⟨hd, q, hat, -, -, hf, hq⟩ := h.held hk
    obtain rfl := Option.some.inj (ho.symm.trans (Ledger.occupantAt_frame.1 hat).2)
    rw [hd, hf, hq]

/-! ### Fetching -/

theorem Lends.lend (h : s.Lends none) {stay : Stay} {dirty : Bool}
    (handles : s'.handles = s.handles.insert 0 ⟨stay, dirty⟩) (place : s'.InPlace stay) :
    s'.Lends (some (stay.file, stay.page)) where
  others hk := by rw [handles, Table.find?_insert, if_neg (Ne.symm hk), h.others hk]
  nothing hl := by cases hl
  page hl := by
    cases hl
    exact ⟨_, by rw [handles, Table.find?_insert_self], rfl, rfl, place⟩

theorem inPlace_of_setOccupant {stay : Stay} {o q : Occupant}
    (ledger : s'.pool.ledger = s.pool.ledger.setOccupant stay.frame q)
    (ho : s.pool.ledger.occupant? stay.frame = some o)
    (hg : s.pool.ledger.generation stay.frame = stay.generation) (hio : q.io ≠ .busy .load) :
    s'.InPlace stay := by
  refine ⟨q, Ledger.occupantAt_frame.2 ⟨?_, ?_⟩, hio⟩
  · rw [ledger, Ledger.generation_setOccupant, hg]
  · rw [ledger, Ledger.occupant?_setOccupant (Ledger.lt_size_of_occupant? ho), if_pos rfl]

theorem Regular.content_of_load {stay : Stay} (hs : s.Regular)
    (hx : s.transferOf t = some ⟨.load, stay⟩) :
    s.content stay.file stay.page = s.files.page? stay.file stay.page := by
  obtain ⟨o, hat, -, ho, hio⟩ := hs.seat hx
  obtain ⟨o', hat', -, hfile, hpage⟩ := hs.escorted.occupantAt hx
  obtain rfl := Option.some.inj (hat.symm.trans hat')
  have hk : s.pool.ledger.table.find? (o.key s.labels) = some stay.frame :=
    hs.consistent.find?_key ho
  rw [Occupant.key, hfile, hpage] at hk
  rw [content_of_resident hk, if_pos]
  rw [Ledger.isLoading, ho]
  simp [hio]

/-- Nobody is refused a page for want of a frame who has no page yet. -/
theorem Stands.not_exhausted (h : s.Stands d) (hd : d.lent = none) (alone : s.Alone 0)
    {w : Option Stay} {look : Option Ticket}
    (ht : s.tasks.find? 0 = some (.fetch f p 0 w (.look look))) (n : Nat) :
    (s.advance 0 none (.fetch f p 0 w (.look look))).2.2 ≠ .ends (.refused (.exhausted n)) := by
  intro he
  have ready : s.Permits (.resume 0 none) := alone.isReady ht
  have refusal : s.refusal? (.resume 0 none) = some (.exhausted n) := by
    rw [refusal?, result_resume ht, he]
    rfl
  obtain ⟨-, -, -, -, -, -, -, -, -, pinned⟩ := pinned_of_exhausted alone.regular ready id refusal
  -- The page in the first frame would be on loan.
  obtain ⟨o, ho, hp⟩ := pinned 0 alone.regular.consistent.size_pos
  have lent := h.lent_of_pinned alone (transferOf_eq ht) ho hp
  rw [hd] at lent
  cases lent

theorem Stands.read (h : s.Stands d) (hf : f < d.files.files.size) (p : PageNo) :
    s.Stands { d with files := (d.files.read none f p (.page .zero)).1 } ∧
      (d.files.read none f p (.page .zero)).2 =
        StoreError.unlessMissing (d.name f) p (d.files.page? f p) := by
  obtain ⟨ks, mirrors⟩ := h.mirrors
  obtain ⟨x, shape⟩ := Catalog.exists_shape hf
  obtain ⟨revises, result⟩ := Catalog.read_whole (n := p) (p := .zero) mirrors.apart shape
  have registry := Catalog.registry_read d.files none f p (.page .zero)
  exact ⟨h.alike revises.apart registry (revises.shape?_eq shape) revises.page?_eq, result⟩

theorem Stands.concurs_lent (h : s.Stands { d with lent := some (f, p) })
    (hf : f < d.files.files.size) (hq : d.files.page? f p ≠ none) (i : FrameNo) :
    Concurs (d.fetch f p) (.lent p i) s := by
  obtain ⟨stands, result⟩ := h.read hf p
  obtain ⟨q, hq⟩ := Option.ne_none_iff_exists'.1 hq
  dsimp only at stands result
  rw [hq] at result
  rw [Desk.fetch]
  generalize d.files.read none f p (.page .zero) = x at stands result ⊢
  obtain ⟨c, r⟩ := x
  obtain rfl : r = .ok q := result
  exact ⟨stands, rfl⟩

theorem Stands.concurs_missing (h : s.Stands d) (hf : f < d.files.files.size)
    (hq : d.files.page? f p = none) :
    Concurs (d.fetch f p) (.refused (.store (.pageNotFound (d.name f) p))) s := by
  obtain ⟨stands, result⟩ := h.read hf p
  rw [hq] at result
  rw [Desk.fetch]
  generalize d.files.read none f p (.page .zero) = x at stands result ⊢
  obtain ⟨c, r⟩ := x
  obtain rfl : r = .error (.pageNotFound (d.name f) p) := result
  exact ⟨stands, rfl⟩

def Fetching (d : Desk) (f : FileNo) (p : PageNo) (task : Task) (s : System) : Prop :=
  s.Stands d ∧ task.Fetches f p

section Fetch

variable {w : Option Stay} (alone : s.Alone 0) (h : s.Stands d) (hd : d.lent = none)
include alone h hd

theorem fetches_look {look : Option Ticket}
    (ht : s.tasks.find? 0 = some (.fetch f p 0 w (.look look))) :
    Leads (Fetching d f p) (Concurs (d.fetch f p))
      (s.after (.resume 0 none)) (s.advance 0 none (.fetch f p 0 w (.look look))).2.2 := by
  obtain ⟨ks, mirrors⟩ := h.mirrors
  have hs := mirrors.sound
  have ready : s.Permits (.resume 0 none) := alone.isReady ht
  have hf : s.hasFile f := hs.regular.orderly.target ht rfl
  have unlent := h.lends
  have stands (handles : (s.after (.resume 0 none)).handles = s.handles) :=
    h.resume alone ht rfl handles
  have mirrors' := mirrors.resume ready ht rfl
  have handles := handles_after_resume ht none
  obtain ⟨l, r, ha⟩ : ∃ l r, s.pool.ledger.acquire s.labels f p w = (l, r) := ⟨_, _, rfl⟩
  simp only [advance, lookForFetch, ha] at handles ⊢
  cases Ledger.acquire_cases hs.regular.consistent.size_pos ha with
  | @hit i o hk ho =>
    obtain ⟨rfl, rfl⟩ := hs.eq_of_find? hf hk ho
    have idle := alone.io_eq_idle (transferOf_eq ht) ho
    have shown : s.pool.ledger.shown i = some (o.file, o.page) := by
      rw [Ledger.shown_of_occupant? ho, idle]
      rfl
    have content := content_of_shown hs.regular shown
    rw [h.content_eq hf] at content
    have ledger : (s.after (.resume 0 none)).pool.ledger =
        s.pool.ledger.setOccupant i o.pin := by
      rw [ledger_resume ht]
      simp only [advance, lookForFetch, ha]
      rfl
    have place : (s.after (.resume 0 none)).InPlace
        ⟨o.file, o.page, i, s.pool.ledger.generation i⟩ :=
      inPlace_of_setOccupant ledger ho rfl (by simp [Occupant.pin, idle])
    rw [hd] at unlent
    exact Stands.concurs_lent ⟨⟨_, mirrors'⟩, unlent.lend handles place⟩
      ((h.hasFile_iff _).1 hf) (by rw [content]; rintro ⟨⟩) i
  | astray hk ho => exact (hs.regular.consistent.occupant?_ne_none hk ho).elim
  | load => exact ⟨stands handles, _, _, rfl, by rintro _ ⟨⟩; exact ⟨rfl, rfl⟩⟩
  | writeBack => exact ⟨stands handles, _, _, rfl, by rintro _ ⟨⟩⟩
  | wait hk hm hb =>
    obtain ⟨o, ho, busy⟩ := hb
    obtain ⟨r, hr⟩ := hm.before ho
    exact (alone.standing_ne_busy (transferOf_eq ht) hr busy).elim
  | exhausted =>
    have found := h.not_exhausted hd alone ht
    simp only [advance, lookForFetch, ha] at found
    exact (found _ rfl).elim

/-- A load of the page asked for brings the page that the desk has, or fails as it does at the desk.
-/
theorem fetches_load {stay : Stay}
    (ht : s.tasks.find? 0 = some (.fetch f p 0 w (.move ⟨.load, stay⟩)))
    (hstay : stay.file = f ∧ stay.page = p) :
    Leads (Fetching d f p) (Concurs (d.fetch f p))
      (s.after (.resume 0 none)) (s.advance 0 none (.fetch f p 0 w (.move ⟨.load, stay⟩))).2.2 := by
  obtain ⟨rfl, rfl⟩ := hstay
  obtain ⟨ks, mirrors⟩ := h.mirrors
  have hs := mirrors.sound
  have hx : s.transferOf 0 = some ⟨.load, stay⟩ := transferOf_eq ht
  have ready : s.Permits (.resume 0 none) := alone.isReady ht
  have hf : s.hasFile stay.file := hs.regular.orderly.target ht rfl
  have mirrors' := mirrors.resume ready ht rfl
  have stands (handles : (s.after (.resume 0 none)).handles = s.handles) :=
    h.resume alone ht rfl handles
  have handles := handles_after_resume ht none
  have ledger : (s.after (.resume 0 none)).pool.ledger = _ := ledger_resume_move hx
  obtain ⟨o, hat, hg, ho, hio⟩ := hs.regular.seat hx
  have content := hs.regular.content_of_load hx
  rw [h.content_eq hf] at content
  obtain ⟨x, shape⟩ := Catalog.exists_shape hf
  have result := (Catalog.read_whole (n := stay.page) (p := s.pool.buffer stay.frame)
    hs.faithful.apart shape).2
  rw [← content] at result
  obtain ⟨files, r, hr⟩ : ∃ files r, s.files.read none stay.file stay.page
    (.page (s.pool.buffer stay.frame)) = (files, r) := ⟨_, _, rfl⟩
  rw [hr] at result
  simp only [advance, moveForFetch, finishTransfer, finishLoad, hr] at handles ⊢
  cases hq : d.files.page? stay.file stay.page with
  | none =>
    rw [hq] at result
    obtain rfl : r = .error (.pageNotFound (s.files.labels stay.file).name stay.page) := result
    have name : (s.files.labels stay.file).name = d.name stay.file := h.name_eq stay.file
    rw [name] at handles ⊢
    exact (stands handles).concurs_missing ((h.hasFile_iff _).1 hf) hq
  | some q =>
    rw [hq] at result
    obtain rfl : r = .ok q := result
    have succeeds : s.succeeds ⟨.load, stay⟩ none = true := by
      simp only [succeeds, hr]
      rfl
    rw [succeeds, Ledger.settle_succeeded hat hio] at ledger
    have place := inPlace_of_setOccupant ledger ho hg (by rintro ⟨⟩)
    have unlent := h.lends
    rw [hd] at unlent
    exact Stands.concurs_lent ⟨⟨_, mirrors'⟩, unlent.lend handles place⟩
      ((h.hasFile_iff _).1 hf) (by rw [hq]; rintro ⟨⟩) _

omit hd in
theorem fetches_writeBack {stay : Stay}
    (ht : s.tasks.find? 0 = some (.fetch f p 0 w (.move ⟨.writeBack, stay⟩))) :
    Leads (Fetching d f p) (Concurs (d.fetch f p))
      (s.after (.resume 0 none))
      (s.advance 0 none (.fetch f p 0 w (.move ⟨.writeBack, stay⟩))).2.2 := by
  have handles := handles_after_resume ht none
  obtain ⟨s', events, hr, same⟩ := h.written (transferOf_eq ht)
  simp only [advance, moveForFetch, hr] at handles ⊢
  exact ⟨h.resume alone ht rfl (handles.trans same), _, _, rfl, by rintro _ ⟨⟩⟩

theorem fetches (ht : s.tasks.find? 0 = some task) (fetching : task.Fetches f p) :
    Leads (Fetching d f p) (Concurs (d.fetch f p)) (s.after (.resume 0 none))
      (s.advance 0 none task).2.2 := by
  obtain ⟨w, stage, rfl, hstage⟩ := fetching
  cases stage with
  | look => exact fetches_look alone h hd ht
  | move x =>
    obtain ⟨kind, stay⟩ := x
    cases kind with
    | load => exact fetches_load alone h hd ht (hstage stay rfl)
    | writeBack => exact fetches_writeBack alone h ht

end Fetch

/-! ### New pages -/

theorem Mirrors.allocate {ks : List Mark} {c : Catalog} {k : HandleNo} (h : s.Mirrors ks c)
    (ready : s.Permits (.resume t none)) (ht : s.tasks.find? t = some (.allocate f k)) :
    (s.files.allocate none f).2 = (c.allocate none f).2 ∧
      (s.after (.resume t none)).Mirrors (ks ++ s.marks (.resume t none))
        (c.allocate none f).1 := by
  have hs := h.sound
  obtain ⟨x, shape⟩ := Catalog.exists_shape (hs.regular.orderly.target ht rfl)
  have shape' : c.shape? f = some x := by rw [← h.shape?, shape]
  obtain ⟨revises, result⟩ := Catalog.allocate_whole hs.faithful.apart shape
  obtain ⟨revises', result'⟩ := Catalog.allocate_whole h.apart shape'
  have hs' := hs.move ready rfl
  obtain ⟨pool, files⟩ : (s.after (.resume t none)).pool = s.pool ∧
      (s.after (.resume t none)).files = (s.files.allocate none f).1 := by
    rw [after, resume_fst ht, advance]
    generalize s.files.allocate none f = r
    obtain ⟨files, r⟩ := r
    cases r <;> exact ⟨rfl, rfl⟩
  refine ⟨result.trans result'.symm, h.follow ready rfl (by rintro _ ⟨⟩) revises'.apart
    (Catalog.registry_allocate ..) ?_ fun {g} hg p => ?_⟩
  · funext g
    rw [files, revises.shape?, revises'.shape?, h.shape?]
  · by_cases shown : ∃ i, s.pool.ledger.shown i = some (g, p)
    · obtain ⟨i, hi⟩ := shown
      have content := content_of_shown hs.regular hi
      have content' : (s.after (.resume t none)).content g p = _ :=
        content_of_shown hs'.regular (by rw [pool]; exact hi)
      rw [pool, ← content, h.content hg] at content'
      rw [h.content hg] at content
      rcases (Catalog.allocate_none_cases (f := f) h.apart Prod.mk.eta.symm).2 g p with
        same | ⟨-, -, new⟩
      · rw [content', same]
      · rw [new] at content
        cases content
    · have hidden := not_exists.1 shown
      have hg' : (s.after (.resume t none)).hasFile g := by
        rwa [hasFile, files, Catalog.size_of_registry (Catalog.registry_allocate ..)]
      have content := content_of_hidden hs.regular hs.faithful.seated hs.faithful.distinct hg hidden
      have content' := content_of_hidden hs'.regular hs'.faithful.seated hs'.faithful.distinct hg'
        (by rw [pool]; exact hidden)
      rw [content', files, revises.page?, revises'.page?, ← h.content hg, content]
      split
      · next same => rw [same, ← h.content hg, content]
      · rfl

def Allocating (d : Desk) (f : FileNo) (task : Task) (s : System) : Prop :=
  (s.Stands d ∧ task = .allocate f 0) ∨ ∃ p, (d.files.allocate none f).2 = .ok p ∧
    Fetching { d with files := (d.files.allocate none f).1 } f p task s

theorem allocates (alone : s.Alone 0) (hd : d.lent = none) (ht : s.tasks.find? 0 = some task)
    (allocating : Allocating d f task s) :
    Leads (Allocating d f) (Concurs (d.allocate f)) (s.after (.resume 0 none))
      (s.advance 0 none task).2.2 := by
  obtain ⟨h, rfl⟩ | ⟨p, hp, fetching⟩ := allocating
  · obtain ⟨ks, mirrors⟩ := h.mirrors
    obtain ⟨same, mirrors'⟩ := mirrors.allocate (alone.isReady ht) ht
    have after : (s.after (.resume 0 none)).handles = s.handles ∧
        (s.after (.resume 0 none)).pool.ledger = s.pool.ledger := by
      rw [handles_after_resume ht, ledger_resume ht, advance]
      generalize s.files.allocate none f = r
      obtain ⟨files, r⟩ := r
      cases r <;> exact ⟨rfl, rfl⟩
    have lends := h.lends.congr after.1 after.2
    rw [advance]
    generalize hr : s.files.allocate none f = r at same
    obtain ⟨files, r⟩ := r
    obtain rfl : r = _ := same
    generalize hq : (d.files.allocate none f).2 = q at hr
    cases q with
    | error e =>
      show Concurs (d.allocate f) (.refused (.store e)) _
      rw [Desk.allocate]
      generalize d.files.allocate none f = x at hq mirrors'
      obtain ⟨c, r⟩ := x
      obtain rfl : r = .error e := hq
      exact ⟨⟨⟨_, mirrors'⟩, lends⟩, rfl⟩
    | ok p => exact .inr ⟨p, hq, ⟨⟨_, mirrors'⟩, lends⟩, none, _, rfl, by rintro _ ⟨⟩⟩
  · have leads := fetches alone fetching.1 hd ht fetching.2
    refine leads.mono (fun fetching => .inr ⟨p, hp, fetching⟩) fun concurs => ?_
    rw [Desk.allocate]
    generalize d.files.allocate none f = x at hp concurs
    obtain ⟨c, r⟩ := x
    obtain rfl : r = .ok p := hp
    exact concurs

/-! ### The page on loan -/

section Lent

variable {stay : Stay} {purpose : Access} {Q : Result → System → Prop}

/-- The page on loan is being used. -/
structure Using (d : Desk) (stay : Stay) (purpose : Access) (task : Task) (s : System) : Prop where
  stands : s.Stands d
  lent : (s.handles.find? 0).map (·.stay) = some stay
  task : task = .access 0 stay purpose .latching ∨ task = .access 0 stay purpose .inside

theorem Stands.lent (h : s.Stands d) (lent : (s.handles.find? 0).map (·.stay) = some stay) :
    s.pool.ledger.stillLoading stay = .ok false ∧ stay.file < d.files.files.size ∧
      d.files.page? stay.file stay.page = some (s.pool.buffer stay.frame) := by
  obtain ⟨ks, mirrors⟩ := h.mirrors
  have hs := mirrors.sound
  obtain ⟨x, hx, rfl⟩ := Option.map_eq_some_iff.1 lent
  obtain ⟨-, o, hat, pinned, hio, file, page⟩ := h.held hx
  obtain ⟨-, ho⟩ := Ledger.occupantAt_frame.1 hat
  have hf : s.hasFile x.stay.file := by
    rw [← file]
    exact hs.faithful.seated.opened ho
  have content := content_of_shown hs.regular (Ledger.shown_eq_some.2 ⟨o, ho, hio, file, page⟩)
  rw [h.content_eq hf] at content
  refine ⟨?_, (h.hasFile_iff _).1 hf, content⟩
  simp only [Ledger.stillLoading, hat, if_neg pinned, hio, decide_false]

theorem uses_latching (alone : s.Alone 0)
    (ht : s.tasks.find? 0 = some (.access 0 stay purpose .latching))
    (h : Using d stay purpose (.access 0 stay purpose .latching) s) :
    Leads (Using d stay purpose) Q (s.after (.resume 0 none))
      (s.advance 0 none (.access 0 stay purpose .latching)).2.2 := by
  obtain ⟨ks, mirrors⟩ := h.stands.mirrors
  have ready : s.Permits (.resume 0 none) := alone.isReady ht
  have handles := handles_after_resume ht none
  have found := (h.stands.lent h.lent).1
  simp only [advance, enter, found] at handles ⊢
  have same (k : HandleNo) : ((s.after (.resume 0 none)).handles.find? k).map (·.stay) =
      (s.handles.find? k).map (·.stay) := by
    rw [handles]
    cases purpose with
    | read => rfl
    | write =>
      rw [markDirty, Table.find?_modify]
      split
      · rw [Option.map_map]
        rfl
      · rfl
  have mirrors' := mirrors.resume ready ht (by cases purpose <;> rfl)
  exact ⟨⟨⟨_, mirrors'⟩, h.stands.lends.after mirrors.sound ready same⟩, (same 0).trans h.lent,
    .inr rfl⟩

theorem uses_read (alone : s.Alone 0)
    (ht : s.tasks.find? 0 = some (.access 0 stay .read .inside))
    (h : Using d stay .read (.access 0 stay .read .inside) s) :
    Concurs (d.read stay.file stay.page) (.content (s.pool.buffer stay.frame))
      (s.after (.resume 0 none)) := by
  obtain ⟨-, hf, hq⟩ := h.stands.lent h.lent
  have handles : (s.after (.resume 0 none)).handles = s.handles := handles_after_resume ht none
  obtain ⟨stands, result⟩ := (h.stands.resume alone ht rfl handles).read hf stay.page
  rw [hq] at result
  rw [Desk.read]
  generalize d.files.read none stay.file stay.page (.page .zero) = x at stands result ⊢
  obtain ⟨c, r⟩ := x
  obtain rfl : r = .ok (s.pool.buffer stay.frame) := result
  exact ⟨stands, rfl⟩

theorem uses_edit {e : Page → Page} (alone : s.Alone 0)
    (ht : s.tasks.find? 0 = some (.access 0 stay (.write e) .inside))
    (h : Using d stay (.write e) (.access 0 stay (.write e) .inside) s) :
    Concurs (d.edit stay.file stay.page e) .done (s.after (.resume 0 none)) := by
  obtain ⟨-, hf, hq⟩ := h.stands.lent h.lent
  have handles : (s.after (.resume 0 none)).handles = s.handles := handles_after_resume ht none
  have ready : s.Permits (.resume 0 none) := alone.isReady ht
  obtain ⟨stands, result⟩ := h.stands.read hf stay.page
  rw [hq] at result
  rw [Desk.edit]
  generalize d.files.read none stay.file stay.page (.page .zero) = x at stands result ⊢
  obtain ⟨c, r⟩ := x
  obtain rfl : r = .ok (s.pool.buffer stay.frame) := result
  dsimp only at stands ⊢
  obtain ⟨-, hf, hq⟩ := stands.lent h.lent
  obtain ⟨ks, mirrors⟩ := stands.mirrors
  have hs := mirrors.sound
  dsimp only at hf hq mirrors
  obtain ⟨x, shape⟩ := Catalog.exists_shape hf
  obtain ⟨revises, result⟩ := Catalog.write_whole (n := stay.page)
    (p := e (s.pool.buffer stay.frame)) mirrors.apart shape
  have registry : (c.write none stay.file stay.page
    (.page (e (s.pool.buffer stay.frame)))).1.registry = c.registry := Catalog.registry_write ..
  rw [hq] at result
  generalize c.write none stay.file stay.page _ = y at revises registry result ⊢
  obtain ⟨c', r⟩ := y
  obtain rfl : r = .ok () := result
  have lends := h.stands.lends.after hs ready fun k => by rw [handles]
  refine ⟨⟨⟨_, mirrors.follow ready rfl (by rintro _ ⟨⟩) revises.apart registry ?_ fun {g} hg p => ?_⟩,
    lends⟩, rfl⟩
  · rw [hs.shape?_resume ready ht (by rintro _ _ ⟨⟩), mirrors.shape?, revises.shape?_eq shape]
  · have acts := acts_after hs.regular.orderly hs.regular.consistent.size_pos ready
    have marks : s.marks (.resume 0 none) = [.edited stay e] := by
      simp only [System.marks, ht, Option.elim_some, marksOf]
    have explained := acts.content (p := p) hs.regular
      (fun _ hk => Move.IsFair.mark (m := .resume 0 none) rfl hk) hs.faithful hg
    rw [marks, explained_singleton] at explained
    have explained : (s.after (.resume 0 none)).content g p =
      if stay.file = g ∧ stay.page = p then (s.content g p).map e else s.content g p := explained
    rw [explained, mirrors.content hg, revises.page?]
    by_cases hfile : stay.file = g
    · subst hfile
      by_cases hpage : stay.page = p
      · subst hpage
        rw [if_pos ⟨rfl, rfl⟩, if_pos rfl, if_pos rfl, hq]
        rfl
      · rw [if_neg fun same => hpage same.2, if_pos rfl, if_neg hpage]
    · rw [if_neg fun same => hfile same.1, if_neg hfile]

end Lent

section Errands

variable (h : s.Stands d) (still : s.Quiescent)
include h still

theorem agree_fetch (hf : f < d.files.files.size) (hd : d.lent = none) (p : PageNo) :
    Agree (s.carryOut (.fetch f p 0)) ((d.fetch f p).map id .ended) := by
  have admits : s.Admits (.fetch f p 0) :=
    ⟨(h.hasFile_iff f).2 hf, h.lends.nothing hd, still.isUnused 0⟩
  refine still.agree (I := Fetching d f p) admits ?_
    fun alone ht fetching => fetches alone fetching.1 hd ht fetching.2
  exact ⟨h.begin ⟨still.idle 0, admits⟩ (by rintro _ _ ⟨⟩), _, _, rfl, by rintro _ ⟨⟩⟩

theorem agree_allocate (hf : f < d.files.files.size) (hd : d.lent = none) :
    Agree (s.carryOut (.allocate f 0)) ((d.allocate f).map id .ended) := by
  have admits : s.Admits (.allocate f 0) :=
    ⟨(h.hasFile_iff f).2 hf, h.lends.nothing hd, still.isUnused 0⟩
  refine still.agree (I := Allocating d f) admits ?_ fun alone ht => allocates alone hd ht
  exact .inl ⟨h.begin ⟨still.idle 0, admits⟩ (by rintro _ _ ⟨⟩), rfl⟩

theorem agree_access {purpose : Access} {e : Desk × Result} (hd : d.lent = some (f, p))
    (last : ∀ {s : System} {stay : Stay}, stay.file = f → stay.page = p → s.Alone 0 →
      s.tasks.find? 0 = some (.access 0 stay purpose .inside) →
      Using d stay purpose (.access 0 stay purpose .inside) s →
      Leads (Using d stay purpose) (Concurs e) (s.after (.resume 0 none))
        (s.advance 0 none (.access 0 stay purpose .inside)).2.2) :
    Agree (s.accessLent purpose) (e.map id .ended) := by
  obtain ⟨x, hx, rfl, rfl, -⟩ := h.lends.page hd
  have admits := still.admits_access hx purpose
  simp only [accessLent, hx]
  refine still.agree (I := Using d x.stay purpose) admits ?_ fun {s task} alone ht using' => ?_
  · refine ⟨h.begin ⟨still.idle 0, admits⟩ (by rintro _ _ ⟨⟩), ?_, .inl rfl⟩
    show (s.handles.find? 0).map (·.stay) = some x.stay
    rw [hx]
    rfl
  · obtain rfl | rfl := using'.task
    · exact uses_latching alone ht using'
    · exact last rfl rfl alone ht using'

theorem agree_read (hd : d.lent = some (f, p)) :
    Agree (s.accessLent .read) ((d.read f p).map id .ended) := by
  refine agree_access h still hd fun hf hp alone ht using' => ?_
  subst hf hp
  exact uses_read alone ht using'

theorem agree_edit (hd : d.lent = some (f, p)) (e : Page → Page) :
    Agree (s.accessLent (.write e)) ((d.edit f p e).map id .ended) := by
  refine agree_access h still hd fun hf hp alone ht using' => ?_
  subst hf hp
  exact uses_edit alone ht using'

theorem agree_release (hd : d.lent = some (f, p)) :
    Agree s.releaseLent ({ d with lent := none }, .ended .done) := by
  obtain ⟨ks, mirrors⟩ := h.mirrors
  have hs := mirrors.sound
  obtain ⟨x, hx, -⟩ := h.lends.page hd
  obtain ⟨-, o, hat, pinned, -⟩ := h.held hx
  have possible : s.Permits (.release 0) := ⟨⟨x, hx⟩, still.isUnused 0⟩
  obtain ⟨l, r, hr⟩ : ∃ l r, s.pool.ledger.unpinStay s.labels x.stay x.dirty = (l, r) :=
    ⟨_, _, rfl⟩
  have returned : s.release 0 = ((s.detach 0).setLedger l, r) := by
    simp only [System.release, hx, hr]
  cases Ledger.unpinStay_cases hr with
  | stale gone => cases gone.symm.trans hat
  | unpinned hat' hp =>
    obtain rfl := Option.some.inj (hat.symm.trans hat')
    exact (pinned hp).elim
  | ok =>
    have after : s.after (.release 0) = (s.detach 0).setLedger _ := congrArg Prod.fst returned
    have acts := acts_after hs.regular.orderly hs.regular.consistent.size_pos possible
    have regular := acts.regular hs.regular
    have attended := still.attended.move hs.regular possible
    have mirrors' := mirrors.quiet possible trivial (by rintro _ ⟨⟩) (by rintro _ ⟨⟩)
      (show (s.after (.release 0)).files.shape? = _ by rw [after]; rfl)
    have handles (k : HandleNo) : (s.after (.release 0)).handles.find? k = none := by
      rw [after]
      show (s.handles.erase 0).find? k = none
      rw [Table.find?_erase]
      split
      · rfl
      · next hk => exact h.lends.others (Ne.symm hk)
    rw [releaseLent, returned]
    rw [after] at regular attended mirrors' handles
    exact ⟨⟨regular, attended, still.idle⟩,
      ⟨⟨_, mirrors'⟩, fun _ => handles _, fun _ => handles 0, by rintro _ _ ⟨⟩⟩, rfl⟩

end Errands

end System

end SecondChance
