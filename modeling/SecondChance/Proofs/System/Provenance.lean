import SecondChance.Proofs.System.FileBacking
import SecondChance.Proofs.System.MoveEffects
import SecondChance.Proofs.System.Exclusion
import SecondChance.Proofs.System.LatchHolding
import SecondChance.Proofs.Words

/-!
Where the content of a page comes from.

Pins can be given back that somebody still relies on, and then a page leaves its frame while
borrowers are waiting for it or even looking at it. Still nobody gets to see another page than the
one asked for. What is in a frame is what the load of this very stay has brought, with the edits
that writers have made in this stay, and so is everything that is written to a file and everything
that somebody inside has before him.

The three safeguards are told apart here. A borrower looks at the generation when he has the latch,
so he is inside only if his page is there. A load has the latch alone, so nothing is loaded under
somebody's eyes. And a page that has just been given the frame is being loaded, so as long as
somebody is inside, the page in the frame is his or is not to be seen yet.
-/

namespace SecondChance

/-- The page that a file delivers to whoever reads it undisturbed. -/
def Catalog.delivers (c : Catalog) (f : FileNo) (n : PageNo) : Option Page :=
  (c.read none f n (.page .zero)).2.toOption

theorem MemoryStore.read_page (m : MemoryStore) (name : String) (n : PageNo) (p q : Page) :
    m.read name n (.page p) = m.read name n (.page q) := by
  unfold read
  cases m.page? n <;> rfl

theorem DiskStore.read_page (d : DiskStore) (name : String) (bytes : Bytes) (n : PageNo)
    (p q : Page) : d.read name bytes n (.page p) = d.read name bytes n (.page q) := by
  unfold read
  cases d.checkLive name n <;> rfl

theorem Catalog.read_page (c : Catalog) (f : FileNo) (n : PageNo) (p q : Page) :
    c.read none f n (.page p) = c.read none f n (.page q) := by
  simp only [read, Fault.disturb_none, Fault.map_delivered_none]
  split
  · rfl
  · next name m _ => rw [m.read_page name n p q]
  · next name d _ => rw [d.read_page name _ n p q]

theorem Catalog.delivers_of_read {c c' : Catalog} {fault : Option Fault} {f : FileNo} {n : PageNo}
    {p q : Page} (h : c.read fault f n (.page p) = (c', .ok q)) (whole : Fault.cuts fault = false) :
    c.delivers f n = some q := by
  rw [read_eq] at h
  generalize hd : Fault.disturb fault _ n _ c = x at h
  obtain ⟨c₁, r⟩ := x
  have hid : Fault.delivered fault (.page p) = id := funext (Fault.delivered_of_whole whole _)
  obtain ⟨-, hr⟩ := Prod.mk.inj h
  simp only [hid, Except.map_id, id_eq] at hr
  rcases Fault.disturb_cases hd with ⟨-, e, he⟩ | ⟨-, he | ⟨e, he⟩⟩
  · cases he.symm.trans hr
  · rw [delivers, read_page c f n .zero p, ← he, hr]
    rfl
  · cases he.symm.trans hr

def Mark.editIn? (stay : Stay) : Mark → Option (Page → Page)
  | .edited x e => if x = stay then some e else none
  | _ => none

/-- The edits that have been made in a stay, the oldest first. -/
def editsIn (stay : Stay) (ks : List Mark) : List (Page → Page) := ks.filterMap (·.editIn? stay)

theorem editsIn_append (stay : Stay) (ks ks' : List Mark) :
    editsIn stay (ks ++ ks') = editsIn stay ks ++ editsIn stay ks' := List.filterMap_append

theorem editsIn_eq_nil {stay : Stay} {ks : List Mark}
    (h : ∀ x e, Mark.edited x e ∈ ks → x ≠ stay) : editsIn stay ks = [] := by
  refine List.filterMap_eq_nil_iff.2 fun k hk => ?_
  cases k with
  | edited x e => exact if_neg (h x e hk)
  | _ => rfl

def System.brings (s : System) (stay : Stay) : Move → Option Page
  | .resume t fault =>
    if s.transferOf t = some ⟨.load, stay⟩ ∧
        (s.files.read fault stay.file stay.page (.page (s.pool.buffer stay.frame))).2.isOk then
      s.files.delivers stay.file stay.page
    else none
  | _ => none

/-- The page that has been brought into the frame of a stay. -/
def History.brought (stay : Stay) : History → Option Page
  | [] => none
  | (s, m) :: h => (s.brings stay m).or (History.brought stay h)

/-- The page is what has been brought for the stay, with the edits made in the stay. -/
def History.Yields (h : History) (stay : Stay) (page : Page) : Prop :=
  ∃ q, h.brought stay = some q ∧ page = q.changed (editsIn stay h.marks)

/-- No read succeeds without delivering the page. -/
def Move.ReadsWhole : Move → Prop
  | .resume _ fault => Fault.cuts fault = false
  | _ => True

/-- The load of a stay is over, in whatever way. -/
structure Ledger.LoadOver (l : Ledger) (stay : Stay) : Prop where
  begun : stay.generation ≤ l.generation stay.frame
  settled (o : Occupant) (ho : (l.frame stay.frame).occupantAt stay.generation = some o) :
    o.io ≠ .busy .load

namespace History

variable {s : System} {m : Move} {stay : Stay} {h : History} {page : Page}

theorem brought_of_none (hm : s.brings stay m = none) :
    brought stay ((s, m) :: h) = h.brought stay := by
  rw [brought, hm, Option.none_or]

theorem editsIn_move (s : System) (m : Move) (h : History) (stay : Stay) :
    editsIn stay (marks ((s, m) :: h)) = editsIn stay h.marks ++ editsIn stay (s.marks m) :=
  editsIn_append ..

theorem Yields.move (y : h.Yields stay page) (hm : s.brings stay m = none)
    (hk : ∀ x e, Mark.edited x e ∈ s.marks m → x ≠ stay) :
    History.Yields ((s, m) :: h) stay page := by
  obtain ⟨q, hq, rfl⟩ := y
  refine ⟨q, (brought_of_none hm).trans hq, ?_⟩
  rw [editsIn_move, editsIn_eq_nil hk, List.append_nil]

theorem Yields.edited (y : h.Yields stay page) (hm : s.brings stay m = none)
    {e : Page → Page} (hk : s.marks m = [.edited stay e]) :
    History.Yields ((s, m) :: h) stay (e page) := by
  obtain ⟨q, hq, rfl⟩ := y
  refine ⟨q, (brought_of_none hm).trans hq, ?_⟩
  rw [editsIn_move, hk]
  simp [editsIn, Mark.editIn?, Page.changed]

theorem yields_of_brings (hm : s.brings stay m = some page)
    (hk : ∀ x e, Mark.edited x e ∈ s.marks m → x ≠ stay) (hn : editsIn stay h.marks = []) :
    History.Yields ((s, m) :: h) stay page := by
  refine ⟨page, by rw [brought, hm, Option.some_or], ?_⟩
  rw [editsIn_move, hn, editsIn_eq_nil hk]
  rfl

end History

namespace System

variable {s : System} {m : Move} {t u : TaskId} {k : HandleNo} {stay : Stay} {i : FrameNo}
  {h : History}

/-! ### Loads that are over -/

section LoadOver

variable (hs : s.Regular)
include hs

theorem Regular.not_loadOver (hx : s.transferOf t = some ⟨.load, stay⟩) :
    ¬ s.pool.ledger.LoadOver stay := by
  obtain ⟨o, hat, -, -, hio⟩ := hs.seat hx
  exact fun ended => ended.settled o hat hio

/-- Nothing is loaded twice in one stay. -/
theorem Regular.loadOver_after (ended : s.pool.ledger.LoadOver stay) (hp : s.Permits m) :
    (s.after m).pool.ledger.LoadOver stay := by
  have hn := hs.consistent.size_pos
  have later := (acts_after hs.orderly hn hp).generation_le stay.frame
  have begun := ended.begun
  refine ⟨Nat.le_trans begun later, fun o' ho' => ?_⟩
  obtain ⟨hg', ho'⟩ := Ledger.occupantAt_frame.1 ho'
  cases (does_after hn hp).origin hs ho' with
  | stayed ho hf hp hg hio =>
    rw [Ne, hio]
    exact ended.settled _ (Ledger.occupantAt_frame.2 ⟨hg.symm.trans hg', ho⟩)
  | @loaded _ _ stay₁ _ _ hm hx hr hi hstay hg =>
    obtain ⟨o, hat, hgo, ho, hio⟩ := hs.seat hx
    rw [hi] at hgo ho
    exact (ended.settled o (Ledger.occupantAt_frame.2 ⟨hg.symm.trans hg', ho⟩) hio).elim
  | arrived hm ht hk hg => omega

theorem Regular.brings_of_loadOver (ended : s.pool.ledger.LoadOver stay) (m : Move) :
    s.brings stay m = none := by
  cases m with
  | resume t fault => exact if_neg fun hx => hs.not_loadOver hx.1 ended
  | _ => rfl

omit hs in
theorem loadOver_of_occupant {o : Occupant} (ho : s.pool.ledger.occupant? i = some o)
    (hio : o.io ≠ .busy .load) : s.pool.ledger.LoadOver (s.pool.ledger.stayOf i o) := by
  refine ⟨Nat.le_refl _, fun o' ho' => ?_⟩
  obtain ⟨-, ho'⟩ := Ledger.occupantAt_frame.1 ho'
  obtain rfl := Option.some.inj (ho.symm.trans ho')
  exact hio

end LoadOver

/-! ### Whoever puts something into a frame -/

/-- What a move does to the content of a frame, and who does it. -/
inductive Touch (s : System) (m : Move) (i : FrameNo) : Prop
  | none (hb : (s.after m).pool.buffer i = s.pool.buffer i)
      (hk : ∀ x e, Mark.edited x e ∈ s.marks m → x.frame ≠ i)
  | load {t : TaskId} {stay : Stay} (hx : s.transferOf t = some ⟨.load, stay⟩)
      (hi : stay.frame = i) (ready : s.isReady t = true)
  | edit {t : TaskId} {k : HandleNo} {stay : Stay} {e₀ e : Page → Page}
      (ht : s.tasks.find? t = some (.access k stay (.write e₀) .inside)) (hi : stay.frame = i)
      (hk : s.marks m = [.edited stay e])
      (hb : (s.after m).pool.buffer i = e (s.pool.buffer i))

theorem after_edited {x : Stay} {e : Page → Page} (hk : .edited x e ∈ s.marks m) :
    ∃ t k e₀, s.tasks.find? t = some (.access k x (.write e₀) .inside) ∧
      s.marks m = [.edited x e] ∧
      (s.after m).pool.buffers = (s.pool.setBuffer x.frame (e (s.pool.buffer x.frame))).buffers := by
  obtain ⟨t, k, ⟨rfl, e₀, ht⟩ | ⟨fault, rfl, ht⟩⟩ := tells_of_mem hk
  · refine ⟨t, k, e₀, ht, by simp only [marks, ht], ?_⟩
    simp only [after, edit, ht]
  · refine ⟨t, k, e, ht, by simp only [marks, ht, Option.elim_some, marksOf], ?_⟩
    rw [after, resume_fst ht, pool_turnTo]
    rfl

theorem touch_of_buffers {x : FrameNo} {page : Page}
    (hb : (s.after m).pool.buffers = (s.pool.setBuffer x page).buffers) (hi : x ≠ i) :
    (s.after m).pool.buffer i = s.pool.buffer i := by
  rw [Pool.buffer, hb, ← Pool.buffer, Pool.buffer_setBuffer, if_neg fun hc => hi hc.1]

/-- The content of a frame changes only through a load that is under way there, or through a writer
who is inside. -/
theorem touch_after (hs : s.Sturdy) (hp : s.Permits m) (i : FrameNo) : s.Touch m i := by
  by_cases hedit : ∃ x e, Mark.edited x e ∈ s.marks m
  · obtain ⟨x, e, hk⟩ := hedit
    obtain ⟨t, k, e₀, ht, hm, hb⟩ := after_edited hk
    by_cases hi : x.frame = i
    · subst hi
      obtain ⟨d, hh⟩ := hs.regular.orderly.borrowed ht
      have within : x.frame < s.pool.buffers.size := by
        rw [hs.placed.sized]
        exact hs.attended.lent k _ hh
      refine .edit ht rfl hm ?_
      rw [Pool.buffer, hb, ← Pool.buffer, Pool.buffer_setBuffer, if_pos ⟨rfl, within⟩]
    · refine .none (touch_of_buffers hb hi) fun y e' hy => ?_
      rw [hm] at hy
      cases List.mem_singleton.1 hy
      exact hi
  · have unedited : ∀ x e, Mark.edited x e ∈ s.marks m → x.frame ≠ i :=
      fun x e hk => (hedit ⟨x, e, hk⟩).elim
    have rest (hb : (s.after m).pool.buffers = s.pool.buffers) : s.Touch m i :=
      .none (buffer_congr hb i) unedited
    have put {t : TaskId} {x : Stay} {page : Page} (hx : s.transferOf t = some ⟨.load, x⟩)
        (ready : s.isReady t = true)
        (hb : (s.after m).pool.buffers = (s.pool.setBuffer x.frame page).buffers) :
        s.Touch m i := by
      by_cases hi : x.frame = i
      · exact .load hx hi ready
      · exact .none (touch_of_buffers hb hi) unedited
    have deed : s.Does m (s.after m) := does_after hs.size_pos hp
    unfold Does at deed
    generalize hl : (s.after m).pool.ledger = l, hb : (s.after m).pool.buffers = b,
      hf : (s.after m).files = f at deed
    cases deed with
    | load hx => exact put hx hp hb
    | fill hx => exact put hx hp.1 hb
    | @edit _ t k x e₀ e ht hm => exact (hedit ⟨x, e, by rw [hm]; exact List.mem_singleton_self _⟩).elim
    | _ => exact rest hb

/-! ### The invariant -/

/-- The content of every frame, and what everybody inside has before him, is of the stay that it
belongs to. -/
structure Sourced (h : History) (s : System) : Prop where
  resident {i : FrameNo} {o : Occupant} (ho : s.pool.ledger.occupant? i = some o)
    (hio : o.io ≠ .busy .load) : h.Yields (s.pool.ledger.stayOf i o) (s.pool.buffer i)
  inside {t : TaskId} {k : HandleNo} {stay : Stay} {purpose : Access}
    (ht : s.tasks.find? t = some (.access k stay purpose .inside)) :
    s.pool.ledger.LoadOver stay ∧ h.Yields stay (s.pool.buffer stay.frame)
  current {t : TaskId} {k : HandleNo} {stay : Stay} {purpose : Access} {o : Occupant}
    (ht : s.tasks.find? t = some (.access k stay purpose .inside))
    (ho : s.pool.ledger.occupant? stay.frame = some o) (hio : o.io ≠ .busy .load) :
    s.pool.ledger.generation stay.frame = stay.generation
  edited {stay : Stay} (hne : editsIn stay h.marks ≠ []) : s.pool.ledger.LoadOver stay

theorem Sourced.new (n : Nat) (c : Catalog) : (System.new n c).Sourced [] where
  resident {i o} ho := by
    cases (Ledger.occupant?_new n i).symm.trans ho
  inside ht := nomatch ht
  current ht := nomatch ht
  edited hne := (hne rfl).elim

section Move

variable (src : s.Sourced h) (hs : s.Sturdy) (hp : s.Permits m)
include src hs hp

theorem Sourced.edited_after {x : Stay} (hne : editsIn x (History.marks ((s, m) :: h)) ≠ []) :
    (s.after m).pool.ledger.LoadOver x := by
  refine hs.regular.loadOver_after ?_ hp
  by_cases hk : editsIn x (s.marks m) = []
  · rw [History.editsIn_move, hk, List.append_nil] at hne
    exact src.edited hne
  · obtain ⟨y, e, hy, rfl⟩ : ∃ y e, Mark.edited y e ∈ s.marks m ∧ y = x := by
      by_contra hno
      exact hk (editsIn_eq_nil fun y e hy hx => hno ⟨y, e, hy, hx⟩)
    obtain ⟨t, k, e₀, ht, -, -⟩ := after_edited hy
    exact (src.inside ht).1

/-- What somebody has before him remains his own, whatever the move does to the frame. -/
theorem Sourced.yields_inside {purpose : Access}
    (ht : s.tasks.find? t = some (.access k stay purpose .inside)) :
    History.Yields ((s, m) :: h) stay ((s.after m).pool.buffer stay.frame) := by
  obtain ⟨ended, yields⟩ := src.inside ht
  have brings := hs.regular.brings_of_loadOver ended m
  cases touch_after hs hp stay.frame with
  | none hb hk =>
    rw [hb]
    exact yields.move brings fun x e hx he => hk x e hx (congrArg Stay.frame he)
  | load hx hi ready =>
    exact (hs.guarded.ne_of_load hs.attended hx ready ht hi.symm).elim
  | edit hu hi hk hb =>
    -- The writer is alone inside, so it is this one.
    obtain rfl := hs.guarded.writer_alone hs.attended hu ht hi.symm
    cases hu.symm.trans ht
    rw [hb]
    exact yields.edited brings hk

theorem Sourced.yields_stayed {o : Occupant} (ho : s.pool.ledger.occupant? i = some o)
    (hio : o.io ≠ .busy .load) :
    History.Yields ((s, m) :: h) (s.pool.ledger.stayOf i o) ((s.after m).pool.buffer i) := by
  have yields := src.resident ho hio
  have brings := hs.regular.brings_of_loadOver (loadOver_of_occupant ho hio) m
  cases touch_after hs hp i with
  | none hb hk =>
    rw [hb]
    exact yields.move brings fun x e hx he => hk x e hx (congrArg Stay.frame he)
  | load hx hi =>
    obtain ⟨o', -, -, ho', hio'⟩ := hs.regular.seat hx
    rw [hi] at ho'
    obtain rfl := Option.some.inj (ho.symm.trans ho')
    exact (hio hio').elim
  | edit ht hi hk hb =>
    -- The page that the writer has is the one in the frame.
    subst hi
    have hat := Ledger.occupantAt_frame.2 ⟨src.current ht ho hio, ho⟩
    rw [hs.stayOf_eq ht hat] at yields brings ⊢
    rw [hb]
    exact yields.edited brings hk

theorem Sourced.yields_loaded {fault : Option Fault} {files : Catalog} {q : Page}
    (hm : m = .resume t fault) (whole : m.ReadsWhole)
    (hx : s.transferOf t = some ⟨.load, stay⟩)
    (hr : s.files.read fault stay.file stay.page (.page (s.pool.buffer stay.frame)) =
      (files, .ok q)) : History.Yields ((s, m) :: h) stay q := by
  have fresh := hs.regular.not_loadOver hx
  have brings : s.brings stay m = some q := by
    subst hm
    rw [System.brings, if_pos ⟨hx, by rw [hr]; rfl⟩]
    exact Catalog.delivers_of_read hr whole
  refine History.yields_of_brings brings (fun x e hk he => ?_) ?_
  · obtain ⟨u, k, e₀, hu, -, -⟩ := after_edited hk
    rw [he] at hu
    exact fresh (src.inside hu).1
  · by_contra hne
    exact fresh (src.edited hne)

theorem Sourced.resident_after (whole : m.ReadsWhole) {o' : Occupant}
    (ho' : (s.after m).pool.ledger.occupant? i = some o') (hio' : o'.io ≠ .busy .load) :
    History.Yields ((s, m) :: h) ((s.after m).pool.ledger.stayOf i o')
      ((s.after m).pool.buffer i) := by
  cases (does_after hs.size_pos hp).origin hs.regular ho' with
  | @stayed o ho hf hpage hgen hio =>
    have yields := src.yields_stayed hs hp ho fun hl => hio' (hio.2 hl)
    have stay : (s.after m).pool.ledger.stayOf i o' = s.pool.ledger.stayOf i o := by
      rw [Ledger.stayOf, hf, hpage, ← Ledger.generation, hgen, Ledger.stayOf, Ledger.generation]
    rwa [stay]
  | @loaded t fault stay files q hm hx hr hi hstay hgen hb =>
    subst hi
    have within : stay.frame < s.pool.buffers.size := by
      rw [hs.placed.sized]
      exact hs.regular.frame_lt hx
    have buffer : (s.after m).pool.buffer stay.frame = q := by
      rw [Pool.buffer, hb, ← Pool.buffer, Pool.buffer_setBuffer, if_pos ⟨rfl, within⟩]
    rw [hstay, buffer]
    exact src.yields_loaded hs hp hm whole hx hr
  | arrived hm ht hk hgen hio => exact (hio' hio).elim

omit src hp in
/-- Whoever comes in finds the page in its frame, and changes nothing there. -/
theorem entered_after {purpose : Access}
    (ht : s.tasks.find? t = some (.access k stay purpose .latching))
    (hl : s.pool.ledger.stillLoading stay = .ok false) (fault : Option Fault) :
    (s.after (.resume t fault)).pool.ledger = s.pool.ledger ∧
      ∃ o, (s.pool.ledger.frame stay.frame).occupantAt stay.generation = some o ∧
        s.pool.ledger.stayOf stay.frame o = stay ∧ o.pins ≠ 0 ∧ o.io ≠ .busy .load := by
  constructor
  · simp only [after, resume_fst ht, pool_turnTo, advance, enter, hl]
    cases purpose <;> rfl
  · rcases s.pool.ledger.stillLoading_cases stay with he | ⟨o, hat, hpins, he⟩
    · cases hl.symm.trans he
    · have hio : decide (o.io = .busy .load) = false := Except.ok.inj (he.symm.trans hl)
      exact ⟨o, hat, hs.stayOf_eq ht hat, hpins, of_decide_eq_false hio⟩

theorem Sourced.inside_after (whole : m.ReadsWhole) {purpose : Access}
    (ht : (s.after m).tasks.find? t = some (.access k stay purpose .inside)) :
    (s.after m).pool.ledger.LoadOver stay ∧
      History.Yields ((s, m) :: h) stay ((s.after m).pool.buffer stay.frame) := by
  rcases System.inside_after hs.size_pos hp ht with ⟨-, before⟩ | ⟨fault, rfl, before, hl⟩
  · exact ⟨hs.regular.loadOver_after (src.inside before).1 hp, src.yields_inside hs hp before⟩
  · obtain ⟨ledger, o, hat, stayOf, -, hio⟩ := entered_after hs before hl fault
    have ho := (Ledger.occupantAt_frame.1 hat).2
    have ended := loadOver_of_occupant ho hio
    rw [← ledger] at ho
    have yields := src.resident_after hs hp whole ho hio
    rw [ledger, stayOf] at yields
    rw [stayOf, ← ledger] at ended
    exact ⟨ended, yields⟩

theorem Sourced.current_after {purpose : Access} {o' : Occupant}
    (ht : (s.after m).tasks.find? t = some (.access k stay purpose .inside))
    (ho' : (s.after m).pool.ledger.occupant? stay.frame = some o') (hio' : o'.io ≠ .busy .load) :
    (s.after m).pool.ledger.generation stay.frame = stay.generation := by
  rcases System.inside_after hs.size_pos hp ht with ⟨-, before⟩ | ⟨fault, rfl, before, hl⟩
  · cases (does_after hs.size_pos hp).origin hs.regular ho' with
    | stayed ho hf hpage hgen hio =>
      rw [hgen]
      exact src.current before ho fun hl => hio' (hio.2 hl)
    | loaded hm hx hr hi =>
      subst hm
      exact (hs.guarded.ne_of_load hs.attended hx hp before hi.symm).elim
    | arrived hm hf hk hgen hio => exact (hio' hio).elim
  · obtain ⟨ledger, o, hat, -⟩ := entered_after hs before hl fault
    rw [ledger]
    exact (Ledger.occupantAt_frame.1 hat).1

theorem Sourced.move (whole : m.ReadsWhole) : (s.after m).Sourced ((s, m) :: h) where
  resident := src.resident_after hs hp whole
  inside := src.inside_after hs hp whole
  current := src.current_after hs hp
  edited := src.edited_after hs hp

end Move

end System

namespace System

variable {s : System} {t : TaskId} {stay : Stay} {fault : Option Fault}

theorem files_turnTo (s : System) (t : TaskId) (turn : Turn) : (s.turnTo t turn).files = s.files := by
  cases turn <;> rfl

theorem files_resume_move {x : Transfer} (hx : s.transferOf t = some x) :
    (s.after (.resume t fault)).files = (s.finishTransfer t x fault).1.files := by
  obtain ⟨task, ht, hx⟩ := Option.bind_eq_some_iff.1 hx
  rw [after, resume_fst ht, files_turnTo]
  cases task with
  | fetch file page k w stage =>
    cases stage with
    | look => cases hx
    | move y =>
      obtain rfl := Option.some.inj hx
      simp only [advance, moveForFetch]
      split
      · next he => rw [he]
      · next he _ => rw [he]
      · next he _ => rw [he]; rfl
  | flushFile _ _ _ stage | flushAll _ _ stage =>
    cases stage with
    | look => cases hx
    | move y =>
      obtain rfl := Option.some.inj hx
      simp only [advance]
      split <;> next he => rw [he]
  | _ => cases hx

theorem files_resume_writeBack (hx : s.transferOf t = some ⟨.writeBack, stay⟩) :
    (s.after (.resume t fault)).files =
      (s.files.write fault stay.file stay.page (.page (s.pool.buffer stay.frame))).1 := by
  rw [files_resume_move hx]
  simp only [finishTransfer, finishWriteBack]
  split <;> rfl

theorem files_strike (hx : s.transferOf t = some ⟨.writeBack, stay⟩) :
    (s.after (.strike t)).files =
      (s.files.write none stay.file stay.page (.page (s.pool.buffer stay.frame))).1 := by
  simp only [after, strike, hx]

theorem pool_release_of_over {k : HandleNo} {x : Handle} (hh : s.handles.find? k = some x)
    (ended : (s.pool.ledger.frame x.stay.frame).occupantAt x.stay.generation = none) :
    (s.release k).1.pool = s.pool := by
  have stale : (s.pool.ledger.unpinStay s.labels x.stay x.dirty).1 = s.pool.ledger := by
    rw [Ledger.unpinStay, ended]
  simp only [release, hh, setLedger, stale]
  rfl

theorem content_of_result {k : HandleNo} {purpose : Access} {q : Page}
    (ht : s.tasks.find? t = some (.access k stay purpose .inside))
    (hr : (s.resume t fault).2.2 = some (.content q)) : q = s.pool.buffer stay.frame := by
  rw [result_resume ht] at hr
  cases purpose with
  | read => exact (Result.content.inj (Option.some.inj hr)).symm
  | write => cases hr

end System

theorem ReachesShared.sourced {n : Nat} (hn : 0 < n) {c : Catalog} (hd : c.Distinct)
    {h : History} {s : System} (run : ReachesShared Move.ReadsWhole (.new n c) h s) :
    s.Sourced h := by
  induction run with
  | start => exact .new n c
  | move run possible whole ih => exact ih.move (run.sturdy hn hd) possible whole
  | others _ _ ih => exact ⟨ih.resident, ih.inside, ih.current, ih.edited⟩

/-- Whatever is done to a pool, pins given back by page included, and whatever others do to the
files: whoever is let in to a page on loan finds that page in its frame, of the generation it was
lent in, pinned and loaded. As long as somebody is inside, he has before him what the load of his
stay brought with the edits made in this stay, and this is what he reads; and the same holds of
everything that is written to a file, for the page that it is written as. No move changes the files
in another way than by the call of a transfer, or by allocating or deleting a page. Giving back a
page that has left its frame does nothing to any frame. -/
theorem pages_kept_apart {n : Nat} (hn : 0 < n) {c : Catalog} (hd : c.Distinct) {h : History}
    {s : System} (run : ReachesShared Move.ReadsWhole (.new n c) h s) :
    (∀ m t k stay purpose, s.Permits m →
      s.tasks.find? t ≠ some (.access k stay purpose .inside) →
      (s.after m).tasks.find? t = some (.access k stay purpose .inside) →
      ∃ d o, (s.after m).handles.find? k = some ⟨stay, d⟩ ∧
        ((s.after m).pool.ledger.frame stay.frame).occupantAt stay.generation = some o ∧
        o.file = stay.file ∧ o.page = stay.page ∧ o.pins ≠ 0 ∧ o.io ≠ .busy .load) ∧
    (∀ t k stay purpose, s.tasks.find? t = some (.access k stay purpose .inside) →
      h.Yields stay (s.pool.buffer stay.frame) ∧
      ∀ fault q, (s.resume t fault).2.2 = some (.content q) → h.Yields stay q) ∧
    (∀ t task f, s.tasks.find? t = some task → task.call? = some (f, .write) →
      ∃ stay, s.transferOf t = some ⟨.writeBack, stay⟩ ∧ stay.file = f ∧
        h.Yields stay (s.pool.buffer stay.frame) ∧
        (∀ fault, (s.after (.resume t fault)).files =
          (s.files.write fault f stay.page (.page (s.pool.buffer stay.frame))).1) ∧
        (s.after (.strike t)).files =
          (s.files.write none f stay.page (.page (s.pool.buffer stay.frame))).1) ∧
    (∀ m, s.Permits m → s.UsesFiles m (s.after m).files) ∧
    ∀ k x, s.handles.find? k = some x →
      (s.pool.ledger.frame x.stay.frame).occupantAt x.stay.generation = none →
      (s.after (.release k)).pool = s.pool ∧ (s.after (.drop k)).pool = s.pool := by
  have hs := run.sturdy hn hd
  have src := run.sourced hn hd
  refine ⟨fun m t k stay purpose hp outside ht => ?_, fun t k stay purpose ht => ?_,
    fun t task f ht hc => ?_, fun m hp => System.usesFiles_after hs.size_pos hp,
    fun k x hh ended => ?_⟩
  · rcases System.inside_after hs.size_pos hp ht with ⟨-, before⟩ | ⟨fault, rfl, before, hl⟩
    · exact (outside before).elim
    · have regular := (System.acts_after hs.regular.orderly hs.size_pos hp).regular hs.regular
      obtain ⟨d, hh⟩ := regular.orderly.borrowed ht
      obtain ⟨ledger, o, hat, stayOf, hpins, hio⟩ := System.entered_after hs before hl fault
      rw [ledger]
      exact ⟨d, o, hh, hat, congrArg Stay.file stayOf, congrArg Stay.page stayOf, hpins, hio⟩
  · obtain ⟨-, yields⟩ := src.inside ht
    refine ⟨yields, fun fault q hq => ?_⟩
    rw [System.content_of_result ht hq]
    exact yields
  · obtain ⟨⟨kind, stay⟩, hx, rfl, hkind⟩ := Task.transfer?_of_call? hc (.inr rfl)
    have hx : s.transferOf t = some ⟨kind, stay⟩ := (System.transferOf_eq ht).trans hx
    cases kind with
    | load => cases hkind
    | writeBack =>
      obtain ⟨o, ho, hio, stayOf⟩ := hs.regular.escorted.seated hx
      have yields := src.resident ho (by simp [hio])
      rw [← stayOf] at yields
      exact ⟨stay, hx, rfl, yields, fun _ => System.files_resume_writeBack hx,
        System.files_strike hx⟩
  · rw [System.after, System.after, System.drop_fst]
    exact ⟨System.pool_release_of_over hh ended, System.pool_release_of_over hh ended⟩

/-- A writer is inside when the pin of the page is given back by page, and somebody else asks for
another page and is given the frame. -/
def smallIntruder : History × System := System.small.play
  [.begin 0 (.allocate 0 0), .resume 0 none, .resume 0 none, .resume 0 none,
    .begin 1 (.access 0 ⟨0, 0, 0, 1⟩ (.write id)), .resume 1 none, .edit 1 fun q => q.setWord 0 1,
    .unpin 0 0 false, .begin 2 (.allocate 0 1), .resume 2 none, .resume 2 none]

/-- The writer still has the page before him that was lent out to him. -/
theorem pages_kept_apart_smallIntruder : ∃ h s, ReachesShared Move.ReadsWhole .small h s ∧
    s.transferOf 2 = some ⟨.load, ⟨0, 1, 0, 2⟩⟩ ∧ s.pool.buffer 0 = Page.zero.setWord 0 1 ∧
    h.Yields ⟨0, 0, 0, 1⟩ (s.pool.buffer 0) := by
  have run : ReachesShared Move.ReadsWhole .small smallIntruder.1 smallIntruder.2 := by
    refine Reaches.shared (.play ⟨⟨rfl, Nat.zero_lt_one, rfl, nofun⟩, rfl, rfl, rfl,
      ⟨rfl, ⟨false, rfl⟩, nofun⟩, rfl, ⟨0, _, _, rfl⟩, Nat.zero_lt_one,
      ⟨rfl, Nat.zero_lt_one, rfl, ?_⟩, rfl, rfl, trivial⟩ ?_)
    · decide
    · simp [Move.ReadsWhole, Fault.cuts]
  refine ⟨_, _, run, rfl, rfl, ?_⟩
  exact ((pages_kept_apart Nat.zero_lt_one distinct_small run).2.1 1 0 ⟨0, 0, 0, 1⟩ _ rfl).1

end SecondChance
