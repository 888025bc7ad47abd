import SecondChance.Proofs.Store.Pages
import SecondChance.Proofs.System.BorrowedPages

/-!
The content of pages, as everybody sees it who goes through the pool.

The content of a page is what its frame has, if the page is in a frame and not just being loaded,
and what its file has otherwise. As far as contents are concerned an act does one of five things,
which are listed as its `Effect`. What they have in common is that a frame may only lose its page,
or be filled from a file, while file and frame say the same.
-/

namespace SecondChance

namespace Ledger

def isLoading (l : Ledger) (i : FrameNo) : Bool := (l.occupant? i).any (·.io = .busy .load)

/-- The page whose content a frame has. -/
def shown (l : Ledger) (i : FrameNo) : Option (FileNo × PageNo) :=
  if l.isLoading i then none else (l.occupant? i).map fun o => (o.file, o.page)

variable {l l' : Ledger} {i j : FrameNo} {o : Occupant}

theorem shown_of_occupant? (ho : l.occupant? i = some o) :
    l.shown i = if o.io = .busy .load then none else some (o.file, o.page) := by
  rw [shown, isLoading, ho]
  simp

theorem shown_of_empty (ho : l.occupant? i = none) : l.shown i = none := by
  rw [shown, isLoading, ho]
  rfl

theorem shown_eq_some {f : FileNo} {p : PageNo} : l.shown i = some (f, p) ↔
    ∃ o, l.occupant? i = some o ∧ o.io ≠ .busy .load ∧ o.file = f ∧ o.page = p := by
  cases ho : l.occupant? i with
  | none => simp [shown_of_empty ho]
  | some o => simp [shown_of_occupant? ho]

theorem shown_congr (h : l'.occupant? i = l.occupant? i) : l'.shown i = l.shown i := by
  rw [shown, shown, isLoading, isLoading, h]

theorem shown_of_one (hi : l'.shown i = l.shown i)
    (hoff : ∀ j, i ≠ j → l'.occupant? j = l.occupant? j) (j : FrameNo) :
    l'.shown j = l.shown j := by
  by_cases hj : i = j
  · exact hj ▸ hi
  · exact shown_congr (hoff j hj)

theorem shown_setOccupant {q : Occupant} (ho : l.occupant? i = some o) (hf : q.file = o.file)
    (hp : q.page = o.page) (hio : q.io = .busy .load ↔ o.io = .busy .load) (j : FrameNo) :
    (l.setOccupant i q).shown j = l.shown j := by
  have hq := occupant?_setOccupant (lt_size_of_occupant? ho) q
  refine shown_of_one ?_ (fun j hj => (hq j).trans (if_neg hj)) j
  rw [shown_of_occupant? ((hq i).trans (if_pos rfl)), shown_of_occupant? ho, hf, hp]
  simp only [hio]

theorem shown_vacate_of_loading (ho : l.occupant? i = some o) (hio : o.io = .busy .load)
    (k : PageKey) (j : FrameNo) : (l.vacate i k).shown j = l.shown j := by
  have hq := occupant?_vacate (lt_size_of_occupant? ho) k
  refine shown_of_one ?_ (fun j hj => (hq j).trans (if_neg hj)) j
  rw [shown_of_empty ((hq i).trans (if_pos rfl)), shown_of_occupant? ho, if_pos hio]

theorem shown_install (hi : i < l.size) (ho : l.occupant? i = none) (k : PageKey) (file : FileNo)
    (page : PageNo) (j : FrameNo) : (l.install i k file page).shown j = l.shown j := by
  have hq := occupant?_install hi k file page
  refine shown_of_one ?_ (fun j hj => (hq j).trans (if_neg hj)) j
  rw [shown_of_occupant? ((hq i).trans (if_pos rfl)), shown_of_empty ho]
  rfl

def Rests (l : Ledger) (i : FrameNo) : Prop :=
  ∃ o, l.occupant? i = some o ∧ o.io = .idle ∧ o.dirty = false

theorem rests_setOccupant {q : Occupant} (ho : l.occupant? i = some o)
    (hq : i = j → q.io = .idle → q.dirty = false → o.io = .idle ∧ o.dirty = false)
    (h : (l.setOccupant i q).Rests j) : l.Rests j := by
  obtain ⟨r, hr, hio, hd⟩ := h
  rw [occupant?_setOccupant (lt_size_of_occupant? ho)] at hr
  split at hr
  · next hj =>
    subst hj
    obtain rfl := Option.some.inj hr
    exact ⟨o, ho, hq rfl hio hd⟩
  · exact ⟨r, hr, hio, hd⟩

theorem rests_vacate {k : PageKey} (ho : l.occupant? i = some o) (h : (l.vacate i k).Rests j) :
    l.Rests j := by
  obtain ⟨r, hr, hio, hd⟩ := h
  rw [occupant?_vacate (lt_size_of_occupant? ho)] at hr
  split at hr
  · cases hr
  · exact ⟨r, hr, hio, hd⟩

theorem rests_install {k : PageKey} {file : FileNo} {page : PageNo} (hi : i < l.size)
    (h : (l.install i k file page).Rests j) : i ≠ j ∧ l.Rests j := by
  obtain ⟨r, hr, hio, hd⟩ := h
  rw [occupant?_install hi] at hr
  split at hr
  · obtain rfl := Option.some.inj hr
    cases hio
  · next hj => exact ⟨hj, r, hr, hio, hd⟩

section Eased

variable {labels : Labels} (h : l.Eased labels l')
include h

theorem Eased.rests (hr : l'.Rests i) : l.Rests i ∧ l'.generation i = l.generation i := by
  obtain ⟨o, ho, hio, hd⟩ := hr
  obtain ⟨r, hr⟩ := h.before ho
  exact ⟨⟨_, hr, hio, hd⟩, (h.after hr).1⟩

theorem Eased.shown (i : FrameNo) : l'.shown i = l.shown i ∨
    (l'.shown i = none ∧ ∃ o, l.occupant? i = some o ∧ o.standing = .available ∧
      o.dirty = false) := by
  cases ho' : l'.occupant? i with
  | some o =>
    obtain ⟨r, hr⟩ := h.before ho'
    left
    rw [shown_of_occupant? ho', shown_of_occupant? hr]
  | none =>
    cases ho : l.occupant? i with
    | none => exact .inl (shown_congr (ho'.trans ho.symm))
    | some o =>
      obtain ⟨-, ⟨r, hr⟩ | hleft⟩ := h.after ho
      · rw [ho'] at hr
        cases hr
      · exact .inr ⟨shown_of_empty ho', o, rfl, hleft⟩

end Eased

end Ledger

namespace Mark

def IsSilent : Mark → Prop
  | .edited .. | .allocating .. => False
  | _ => True

/-- Whether the content of a page may turn from `a` into `b` in an act with this mark: an edit of
the page changes it accordingly, an allocation of the page may give it any content if it had none,
and everything else leaves it alone. -/
def Explains (f : FileNo) (p : PageNo) (a b : Option Page) : Mark → Prop
  | .edited stay e => b = if stay.file = f ∧ stay.page = p then a.map e else a
  | .allocating g offer => b = a ∨ (g = f ∧ offer = some p ∧ a = none)
  | _ => b = a

end Mark

/-- Whether the content of a page may turn from `a` into `b` in acts with these marks. -/
def Explained (f : FileNo) (p : PageNo) : List Mark → Option Page → Option Page → Prop
  | [], a, b => b = a
  | k :: ks, a, c => ∃ b, k.Explains f p a b ∧ Explained f p ks b c

section Explained

variable {f : FileNo} {p : PageNo} {ks ks' : List Mark} {a b c : Option Page}

theorem explained_of_silent (h : ∀ k ∈ ks, k.IsSilent) (a : Option Page) :
    Explained f p ks a a := by
  induction ks with
  | nil => rfl
  | cons k ks ih =>
    refine ⟨a, ?_, ih fun x hx => h x (List.mem_cons_of_mem _ hx)⟩
    have hk := h k List.mem_cons_self
    cases k with
    | edited | allocating => exact hk.elim
    | _ => rfl

theorem explained_singleton {k : Mark} : Explained f p [k] a b ↔ k.Explains f p a b := by
  constructor
  · rintro ⟨c, hc, rfl⟩
    exact hc
  · intro h
    exact ⟨b, h, rfl⟩

theorem Explained.append (h : Explained f p ks a b) (h' : Explained f p ks' b c) :
    Explained f p (ks ++ ks') a c := by
  induction ks generalizing a with
  | nil =>
    obtain rfl : b = a := h
    exact h'
  | cons k ks ih =>
    obtain ⟨d, hd, hr⟩ := h
    exact ⟨d, hd, ih hr⟩

end Explained

namespace System

/-- The content of a page: that of its frame if it is there and not just being loaded, and that of
its file otherwise. -/
def content (s : System) (f : FileNo) (p : PageNo) : Option Page :=
  match s.pool.ledger.table.find? (s.labels.key f p) with
  | some i => if s.pool.ledger.isLoading i then s.files.page? f p else some (s.pool.buffer i)
  | none => s.files.page? f p

/-- The page in a frame has not been changed since it was read or written, and nobody who has it is
going to say so. -/
def IsClean (s : System) (i : FrameNo) : Prop :=
  s.pool.ledger.Rests i ∧
    ∀ h x, s.handles.find? h = some x → x.stay.isAt i (s.pool.ledger.generation i) = true →
      x.dirty = false

/-- Files have what clean frames have. -/
def Backed (s : System) : Prop :=
  ∀ i f p, s.IsClean i → s.pool.ledger.shown i = some (f, p) →
    s.files.page? f p = some (s.pool.buffer i)

section Content

variable {s : System} {i j : FrameNo} {f : FileNo} {p : PageNo}

theorem content_of_shown (hs : s.Regular) (hi : s.pool.ledger.shown i = some (f, p)) :
    s.content f p = some (s.pool.buffer i) := by
  obtain ⟨o, ho, hio, rfl, rfl⟩ := Ledger.shown_eq_some.1 hi
  have hl : s.pool.ledger.isLoading i = false := by
    rw [Ledger.isLoading, ho]
    simpa using hio
  have hk : s.pool.ledger.table.find? (s.labels.key o.file o.page) = some i :=
    hs.consistent.find?_key ho
  rw [content, hk]
  simp only [hl]
  rfl

theorem content_of_unshown (hs : s.Regular)
    (opened : ∀ i o, s.pool.ledger.occupant? i = some o → s.hasFile o.file)
    (hd : s.files.Distinct) (hf : s.hasFile f) (hn : ∀ i, s.pool.ledger.shown i ≠ some (f, p)) :
    s.content f p = s.files.page? f p := by
  unfold content
  split
  · next i hk =>
    rw [if_pos]
    -- Otherwise the frame would show the page, because no other page has its key.
    obtain ⟨o, ho, hkey⟩ := hs.consistent.occupant?_of_find? hk
    obtain ⟨rfl, rfl⟩ := hd.key_inj (opened i o ho) hf hkey
    have hi := hn i
    rw [Ledger.shown_of_occupant? ho] at hi
    rw [Ledger.isLoading, ho]
    simpa using hi
  · rfl

theorem content_of_hidden (hs : s.Regular) (h : s.Seated) (hd : s.files.Distinct)
    (hf : s.hasFile f) (hn : ∀ i, s.pool.ledger.shown i ≠ some (f, p)) :
    s.content f p = s.files.page? f p :=
  content_of_unshown hs (fun _ _ ho => h.opened ho) hd hf hn

/-- No page is to be seen in two frames. -/
theorem Regular.shown_inj (hs : s.Regular) {x : FileNo × PageNo}
    (hi : s.pool.ledger.shown i = some x) (hj : s.pool.ledger.shown j = some x) : i = j := by
  obtain ⟨f, p⟩ := x
  obtain ⟨o, ho, -, rfl, rfl⟩ := Ledger.shown_eq_some.1 hi
  obtain ⟨q, hq, -, hf, hp⟩ := Ledger.shown_eq_some.1 hj
  refine hs.consistent.frame_inj ho hq ?_
  rw [Occupant.key, Occupant.key, hf, hp]

end Content

/-! ### What acts do to contents -/

/-- What an act does, as far as contents are concerned. -/
inductive Effect (s s' : System) : List Mark → Prop
  /-- Nothing, except that clean pages may have left their frames. -/
  | rest {k : List Mark} (hk : ∀ x ∈ k, x.IsSilent)
      (hs : ∀ i, s'.pool.ledger.shown i = s.pool.ledger.shown i ∨
        (s.IsClean i ∧ s'.pool.ledger.shown i = none))
      (hb : ∀ i, s.pool.ledger.shown i ≠ none → s'.pool.buffer i = s.pool.buffer i)
      (hf : s'.files.page? = s.files.page?) (hc : ∀ i, s'.IsClean i → s.IsClean i) :
      Effect s s' k
  /-- A frame has got the content of a page from its file. -/
  | load {k : List Mark} {i : FrameNo} {f : FileNo} {p : PageNo} (hk : ∀ x ∈ k, x.IsSilent)
      (hi : s.pool.ledger.shown i = none)
      (hs : ∀ j, s'.pool.ledger.shown j = if i = j then some (f, p) else s.pool.ledger.shown j)
      (hq : s.files.page? f p = some (s'.pool.buffer i))
      (hb : ∀ j, i ≠ j → s'.pool.buffer j = s.pool.buffer j)
      (hf : s'.files.page? = s.files.page?) (hc : ∀ j, i ≠ j → s'.IsClean j → s.IsClean j) :
      Effect s s' k
  /-- A file has got the content of a page from its frame. -/
  | save {i : FrameNo} {f : FileNo} {p : PageNo} (hi : s.pool.ledger.shown i = some (f, p))
      (hs : ∀ j, s'.pool.ledger.shown j = s.pool.ledger.shown j)
      (hb : ∀ j, s'.pool.buffer j = s.pool.buffer j)
      (hf : ∀ g n, s'.files.page? g n =
        if f = g ∧ p = n then some (s.pool.buffer i) else s.files.page? g n)
      (hc : ∀ j, i ≠ j → s'.IsClean j → s.IsClean j) : Effect s s' []
  /-- A file may have got a page that it did not have. -/
  | grow {g : FileNo} {offer : Option PageNo}
      (hs : ∀ j, s'.pool.ledger.shown j = s.pool.ledger.shown j)
      (hb : ∀ j, s'.pool.buffer j = s.pool.buffer j)
      (hf : ∀ f p, s'.files.page? f p = s.files.page? f p ∨
        (g = f ∧ offer = some p ∧ s.files.page? f p = none))
      (hc : ∀ j, s'.IsClean j → s.IsClean j) : Effect s s' [.allocating g offer]
  /-- A frame has been written to, and somebody is going to say so. -/
  | edit {stay : Stay} {e : Page → Page}
      (hi : s.pool.ledger.shown stay.frame = some (stay.file, stay.page))
      (hs : ∀ j, s'.pool.ledger.shown j = s.pool.ledger.shown j)
      (hb : ∀ j, s'.pool.buffer j =
        if stay.frame = j then e (s.pool.buffer j) else s.pool.buffer j)
      (hf : s'.files.page? = s.files.page?)
      (hc : ∀ j, s'.IsClean j → s.IsClean j ∧ stay.frame ≠ j) : Effect s s' [.edited stay e]

namespace Effect

variable {s s' : System} {k : List Mark}

theorem backed (e : Effect s s' k) (hs : s.Regular) (h : s.Backed) : s'.Backed := by
  intro j g n hcl hsh
  cases e with
  | rest _ hs' hb hf hc =>
    rcases hs' j with he | ⟨-, hn⟩
    · rw [he] at hsh
      rw [hf, hb j (by rw [hsh]; nofun)]
      exact h j g n (hc j hcl) hsh
    · rw [hn] at hsh
      cases hsh
  | @load _ i f p _ hi hs' hq hb hf hc =>
    rw [hs'] at hsh
    split at hsh
    · next hj =>
      subst hj
      cases hsh
      rw [hf, hq]
    · next hj =>
      rw [hf, hb j hj]
      exact h j g n (hc j hj hcl) hsh
  | @save i f p hi hs' hb hf hc =>
    rw [hs'] at hsh
    rw [hf, hb]
    by_cases hj : i = j
    · subst hj
      rw [hi] at hsh
      cases hsh
      rw [if_pos ⟨rfl, rfl⟩]
    · rw [if_neg]
      · exact h j g n (hc j hj hcl) hsh
      · rintro ⟨rfl, rfl⟩
        exact hj (hs.shown_inj hi hsh)
  | grow hs' hb hf hc =>
    rw [hs'] at hsh
    have hold := h j g n (hc j hcl) hsh
    rw [hb]
    rcases hf g n with he | ⟨-, -, hn⟩
    · rw [he, hold]
    · rw [hn] at hold
      cases hold
  | edit hi hs' hb hf hc =>
    obtain ⟨hcl, hj⟩ := hc j hcl
    rw [hs'] at hsh
    rw [hf, hb, if_neg hj]
    exact h j g n hcl hsh

variable (e : Effect s s' k) (hs : s.Regular) (hs' : s'.Regular)

include e hs hs'

/-- A page that is to be seen has the content of its frame, before and after. -/
theorem content_seen (h' : s'.Seated) (hd' : s'.files.Distinct) (hbk : s.Backed) {f : FileNo}
    {p : PageNo} (hf' : s'.hasFile f) {i : FrameNo} (hi : s.pool.ledger.shown i = some (f, p)) :
    Explained f p k (s.content f p) (s'.content f p) := by
  have before := content_of_shown hs hi
  have after (hi' : s'.pool.ledger.shown i = some (f, p)) := content_of_shown hs' hi'
  cases e with
  | rest hk hsh hb hf hc =>
    rcases hsh i with he | ⟨hcl, hn⟩
    · rw [after (he.trans hi), before, hb i (by rw [hi]; nofun)]
      exact explained_of_silent hk _
    · rw [content_of_hidden hs' h' hd' hf', hf, hbk i f p hcl hi, before]
      · exact explained_of_silent hk _
      · intro j hj
        rcases hsh j with he | ⟨-, hn'⟩
        · obtain rfl := hs.shown_inj hi (he.symm.trans hj)
          rw [hn] at hj
          cases hj
        · rw [hn'] at hj
          cases hj
  | @load _ i₀ _ _ hk hi₀ hsh hq hb hf hc =>
    have hne : i₀ ≠ i := by
      rintro rfl
      rw [hi₀] at hi
      cases hi
    rw [after ((hsh i).trans ((if_neg hne).trans hi)), before, hb i hne]
    exact explained_of_silent hk _
  | save hi₀ hsh hb hf hc =>
    rw [after ((hsh i).trans hi), before, hb]
    rfl
  | grow hsh hb hf hc =>
    rw [after ((hsh i).trans hi), before, hb]
    exact explained_singleton.2 (.inl rfl)
  | @edit stay e hi₀ hsh hb hf hc =>
    rw [after ((hsh i).trans hi), before, hb]
    refine explained_singleton.2 ?_
    show _ = if stay.file = f ∧ stay.page = p then _ else _
    by_cases hst : stay.file = f ∧ stay.page = p
    · obtain ⟨rfl, rfl⟩ := hst
      rw [if_pos (hs.shown_inj hi₀ hi), if_pos ⟨rfl, rfl⟩]
      rfl
    · rw [if_neg hst, if_neg]
      rintro rfl
      rw [hi₀] at hi
      cases hi
      exact hst ⟨rfl, rfl⟩

theorem content_unseen (h : s.Seated) (h' : s'.Seated) (hd : s.files.Distinct)
    (hd' : s'.files.Distinct) {f : FileNo} {p : PageNo} (hf : s.hasFile f) (hf' : s'.hasFile f)
    (hn : ∀ i, s.pool.ledger.shown i ≠ some (f, p)) :
    Explained f p k (s.content f p) (s'.content f p) := by
  have before := content_of_hidden hs h hd hf hn
  have after (hn' : ∀ i, s'.pool.ledger.shown i ≠ some (f, p)) :=
    content_of_hidden hs' h' hd' hf' hn'
  cases e with
  | rest hk hsh hb hfile hc =>
    rw [before, after, hfile]
    · exact explained_of_silent hk _
    · intro i hi
      rcases hsh i with he | ⟨-, hnone⟩
      · exact hn i (he.symm.trans hi)
      · rw [hnone] at hi
        cases hi
  | @load _ i g m hk hi hsh hq hb hfile hc =>
    by_cases hgm : (g, m) = (f, p)
    · cases hgm
      rw [before, content_of_shown hs' ((hsh i).trans (if_pos rfl)), hq]
      exact explained_of_silent hk _
    · rw [before, after, hfile]
      · exact explained_of_silent hk _
      · intro j hj
        rw [hsh] at hj
        split at hj
        · exact hgm (Option.some.inj hj)
        · exact hn j hj
  | @save i g m hi hsh hb hfile hc =>
    rw [before, after, hfile, if_neg]
    · rfl
    · rintro ⟨rfl, rfl⟩
      exact hn i hi
    · intro j
      rw [hsh]
      exact hn j
  | grow hsh hb hfile hc =>
    rw [before, after]
    · exact explained_singleton.2 (hfile f p)
    · intro j
      rw [hsh]
      exact hn j
  | @edit stay e hi hsh hb hfile hc =>
    rw [before, after, hfile]
    · refine explained_singleton.2 ?_
      show _ = if stay.file = f ∧ stay.page = p then _ else _
      rw [if_neg]
      rintro ⟨rfl, rfl⟩
      exact hn _ hi
    · intro j
      rw [hsh]
      exact hn j

end Effect

end System

end SecondChance
