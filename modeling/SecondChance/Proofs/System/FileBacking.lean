import SecondChance.Proofs.System.Transparency

/-!
What files have of the pages in the frames.

A page that is idle and not dirty, and that no borrower is going to give back dirty, is in its file
byte for byte, so its frame can be emptied without anything being lost. The rest of the module says
what an act does to a page that it does not edit: it leaves file and content as they are, or it
makes the file have the content.
-/

namespace SecondChance

/-- The mark is of an edit of the page. -/
def Mark.IsEditOf (f : FileNo) (p : PageNo) : Mark → Prop
  | .edited stay _ => stay.file = f ∧ stay.page = p
  | _ => False

namespace System

variable {s s' : System} {ks k : List Mark} {i : FrameNo} {f : FileNo} {p : PageNo}

theorem content_of_absent (hk : s.pool.ledger.table.find? (s.labels.key f p) = none) :
    s.content f p = s.files.page? f p := by
  simp only [content, hk]

theorem content_of_resident (hk : s.pool.ledger.table.find? (s.labels.key f p) = some i) :
    s.content f p =
      if s.pool.ledger.isLoading i then s.files.page? f p else some (s.pool.buffer i) := by
  simp only [content, hk]

/-- Emptying a frame changes the content of no page, provided that the file has what the frame
has. -/
theorem content_vacate (hs : s.Regular) (h : s.Seated) (hd : s.files.Distinct) {o : Occupant}
    (ho : s.pool.ledger.occupant? i = some o) (hio : o.io ≠ .busy .load)
    (hq : s.files.page? o.file o.page = some (s.pool.buffer i)) (hf : s.hasFile f) :
    (s.setLedger (s.pool.ledger.vacate i (o.key s.labels))).content f p = s.content f p := by
  have erased : (s.setLedger (s.pool.ledger.vacate i (o.key s.labels))).pool.ledger.table.find?
      (s.labels.key f p) = if o.key s.labels = s.labels.key f p then none
        else s.pool.ledger.table.find? (s.labels.key f p) := Table.find?_erase ..
  by_cases hkey : o.key s.labels = s.labels.key f p
  · obtain ⟨rfl, rfl⟩ := hd.key_inj (h.opened ho) hf hkey
    rw [if_pos hkey] at erased
    rw [content_of_absent erased, content_of_shown hs (Ledger.shown_eq_some.2 ⟨o, ho, hio, rfl, rfl⟩)]
    exact hq
  · rw [if_neg hkey] at erased
    cases hj : s.pool.ledger.table.find? (s.labels.key f p) with
    | none =>
      rw [content_of_absent hj, content_of_absent (erased.trans hj)]
      rfl
    | some j =>
      -- The page is in another frame, which is not touched.
      have hne : i ≠ j := by
        rintro rfl
        obtain ⟨q, hq', hqk⟩ := hs.consistent.occupant?_of_find? hj
        rw [ho] at hq'
        exact hkey (Option.some.inj hq' ▸ hqk)
      have same : (s.setLedger (s.pool.ledger.vacate i (o.key s.labels))).pool.ledger.isLoading j =
          s.pool.ledger.isLoading j := by
        have hv := Ledger.occupant?_vacate (Ledger.lt_size_of_occupant? ho) (o.key s.labels) j
        rw [if_neg hne] at hv
        exact congrArg (fun o => Option.any _ o) hv
      rw [content_of_resident hj, content_of_resident (erased.trans hj), same]
      rfl

/-! ### Pages that are not edited -/

/-- The file has what the page contains. -/
def IsStored (s : System) (f : FileNo) (p : PageNo) : Prop := s.files.page? f p = s.content f p

instance : Decidable (s.IsStored f p) :=
  inferInstanceAs (Decidable (s.files.page? f p = s.content f p))

/-- The pages that are to be seen in the frames have not been taken away from their files. -/
def Rooted (s : System) : Prop :=
  ∀ i f p, s.pool.ledger.shown i = some (f, p) → s.files.page? f p ≠ none

theorem isStored_of_hidden (hs : s.Regular) (h : s.Seated) (hd : s.files.Distinct)
    (hf : s.hasFile f) (hn : ∀ i, s.pool.ledger.shown i ≠ some (f, p)) : s.IsStored f p :=
  (content_of_hidden hs h hd hf hn).symm

theorem isStored_of_shown (hs : s.Regular) (hi : s.pool.ledger.shown i = some (f, p))
    (hq : s.files.page? f p = some (s.pool.buffer i)) : s.IsStored f p :=
  hq.trans (content_of_shown hs hi).symm

theorem Rooted.new (n : Nat) (c : Catalog) : (System.new n c).Rooted := by
  intro i f p hi
  have hn : (System.new n c).pool.ledger.occupant? i = none := Ledger.occupant?_new n i
  rw [Ledger.shown_of_empty hn] at hi
  cases hi

namespace Effect

variable (e : Effect s s' k)
include e

theorem rooted (h : s.Rooted) : s'.Rooted := by
  intro j g n hj
  cases e with
  | rest _ hs' hb hf hc =>
    rw [hf]
    rcases hs' j with he | ⟨-, hn⟩
    · exact h j g n (he.symm.trans hj)
    · exact nomatch hn.symm.trans hj
  | @load _ i _ _ _ hi hs' hq hb hf hc =>
    rw [hs'] at hj
    rw [hf]
    split at hj
    · cases hj
      simp [hq]
    · exact h j g n hj
  | save hi hs' hb hf hc =>
    rw [hs'] at hj
    have hold := h j g n hj
    rw [hf]
    split
    · nofun
    · exact hold
  | grow hs' hb hf hc =>
    rw [hs'] at hj
    have hold := h j g n hj
    rcases hf g n with he | ⟨-, -, hn⟩
    · rwa [he]
    · exact (hold hn).elim
  | edit hi hs' hb hf hc =>
    rw [hs'] at hj
    rw [hf]
    exact h j g n hj

/-- An act that does not edit the page leaves both its content and its file's copy alone, or the
file has afterwards what the page contains. -/
theorem kept_or_stored (hs : s.Regular) (hs' : s'.Regular) (h' : s'.Seated)
    (hd' : s'.files.Distinct) (hr : s.Rooted) (hf' : s'.hasFile f)
    (hno : ∀ x ∈ k, ¬ x.IsEditOf f p) :
    (s'.files.page? f p = s.files.page? f p ∧ s'.content f p = s.content f p) ∨
      s'.IsStored f p := by
  by_cases hidden : ∀ i, s'.pool.ledger.shown i ≠ some (f, p)
  · exact .inr (isStored_of_hidden hs' h' hd' hf' hidden)
  obtain ⟨i, hi'⟩ : ∃ i, s'.pool.ledger.shown i = some (f, p) := by simpa using hidden
  -- Where the page was in the same frame before, with the same content, it has been kept.
  have kept (hi : s.pool.ledger.shown i = some (f, p))
      (hb : s'.pool.buffer i = s.pool.buffer i) : s'.content f p = s.content f p := by
    rw [content_of_shown hs hi, content_of_shown hs' hi', hb]
  cases e with
  | rest _ hsh hb hf hc =>
    rcases hsh i with he | ⟨-, hn⟩
    · have hi := he.symm.trans hi'
      have hseen : s.pool.ledger.shown i ≠ none := by simp [hi]
      exact .inl ⟨by rw [hf], kept hi (hb i hseen)⟩
    · exact nomatch hn.symm.trans hi'
  | @load _ i₀ _ _ _ hi₀ hsh hq hb hf hc =>
    have hi := hi'
    rw [hsh] at hi
    by_cases hne : i₀ = i
    · subst hne
      rw [if_pos rfl] at hi
      cases hi
      exact .inr (isStored_of_shown hs' hi' (by rw [hf, hq]))
    · rw [if_neg hne] at hi
      exact .inl ⟨by rw [hf], kept hi (hb i hne)⟩
  | @save i₀ g n hi₀ hsh hb hf hc =>
    have hi := (hsh i).symm.trans hi'
    by_cases hgn : g = f ∧ n = p
    · obtain ⟨rfl, rfl⟩ := hgn
      obtain rfl := hs.shown_inj hi₀ hi
      refine .inr (isStored_of_shown hs' hi' ?_)
      rw [hf, if_pos ⟨rfl, rfl⟩, hb]
    · exact .inl ⟨by rw [hf, if_neg hgn], kept hi (hb i)⟩
  | grow hsh hb hf hc =>
    have hi := (hsh i).symm.trans hi'
    rcases hf f p with he | ⟨-, -, hn⟩
    · exact .inl ⟨he, kept hi (hb i)⟩
    · exact (hr i f p hi hn).elim
  | @edit stay e hi₀ hsh hb hf hc =>
    have hi := (hsh i).symm.trans hi'
    have hne : stay.frame ≠ i := by
      rintro rfl
      have he := hi₀.symm.trans hi
      cases he
      exact hno _ (List.mem_singleton_self _) ⟨rfl, rfl⟩
    have hbi := hb i
    rw [if_neg hne] at hbi
    exact .inl ⟨by rw [hf], kept hi hbi⟩

end Effect

/-- The system is regular and faithful, and every page that is to be seen in a frame is live in its
file. -/
structure Sound (ks : List Mark) (s : System) : Prop where
  regular : s.Regular
  faithful : s.Faithful ks
  rooted : s.Rooted

theorem Act.sound (a : Act s k s') (hk : ∀ x ∈ k, x.IsFair) (h : s.Sound ks) :
    s'.Sound (ks ++ k) where
  regular := a.regular h.regular
  faithful := a.faithful h.regular hk h.faithful
  rooted := (a.effect h.regular hk h.faithful).rooted h.rooted

theorem Acts.keep {P : System → Prop}
    (step : ∀ {s s' : System} {ks k : List Mark}, s.Sound ks → s.hasFile f →
      (∀ x ∈ k, x.IsFair) → (∀ x ∈ k, ¬ x.IsEditOf f p) → Act s k s' → P s → P s')
    (a : Acts s k s') (h : s.Sound ks) (hf : s.hasFile f) (hk : ∀ x ∈ k, x.IsFair)
    (hno : ∀ x ∈ k, ¬ x.IsEditOf f p) (hP : P s) : P s' := by
  induction a generalizing ks with
  | done => exact hP
  | @more s s₁ s' k₁ k₂ first rest ih =>
    have hk₁ : ∀ x ∈ k₁, x.IsFair := fun x hx => hk x (List.mem_append_left _ hx)
    have hno₁ : ∀ x ∈ k₁, ¬ x.IsEditOf f p := fun x hx => hno x (List.mem_append_left _ hx)
    refine ih (first.sound hk₁ h) ((first.hasFile f).2 hf) ?_ ?_ (step h hf hk₁ hno₁ first hP)
    · exact fun x hx => hk x (List.mem_append_right _ hx)
    · exact fun x hx => hno x (List.mem_append_right _ hx)

theorem Act.kept_or_stored (a : Act s k s') (h : s.Sound ks) (hf : s.hasFile f)
    (hk : ∀ x ∈ k, x.IsFair) (hno : ∀ x ∈ k, ¬ x.IsEditOf f p) :
    (s'.files.page? f p = s.files.page? f p ∧ s'.content f p = s.content f p) ∨
      s'.IsStored f p := by
  have h' := a.sound hk h
  exact (a.effect h.regular hk h.faithful).kept_or_stored h.regular h'.regular h'.faithful.seated
    h'.faithful.distinct h.rooted ((a.hasFile f).2 hf) hno

theorem Acts.kept_or_stored (a : Acts s k s') (h : s.Sound ks) (hf : s.hasFile f)
    (hk : ∀ x ∈ k, x.IsFair) (hno : ∀ x ∈ k, ¬ x.IsEditOf f p) :
    (s'.files.page? f p = s.files.page? f p ∧ s'.content f p = s.content f p) ∨
      s'.IsStored f p := by
  refine a.keep (P := fun s' => (s'.files.page? f p = s.files.page? f p ∧
    s'.content f p = s.content f p) ∨ s'.IsStored f p) ?_ h hf hk hno (.inl ⟨rfl, rfl⟩)
  intro s₁ s₂ ks k h hf hk hno a before
  rcases a.kept_or_stored h hf hk hno with ⟨hfile, hcontent⟩ | stored
  · rcases before with ⟨hfile₁, hcontent₁⟩ | stored₁
    · exact .inl ⟨hfile.trans hfile₁, hcontent.trans hcontent₁⟩
    · exact .inr (hfile.trans (stored₁.trans hcontent.symm))
  · exact .inr stored

end System

theorem Reaches.sound {n : Nat} (hn : 0 < n) {c : Catalog} (hd : c.Distinct) (ha : c.Apart)
    {h : History} {s : System} (run : Reaches Move.IsFair (.new n c) h s) : s.Sound h.marks :=
  (run.preserve (P := System.Sound) Mark.IsFair (.new hn c) ⟨.new hn c, .new n hd ha, .new n c⟩
    (fun _ _ hm _ hk => hm.mark hk) fun _ h hk a => a.sound hk h).2

/-- In every state of every such run a page that is idle and not dirty, and whose handles do not say
that it will come back dirty, is in its file exactly as it is in its frame. So the frame could be
emptied, and no page would contain anything else. -/
theorem clean_frames_backed {n : Nat} (hn : 0 < n) {c : Catalog} (hd : c.Distinct) (ha : c.Apart)
    {h : History} {s : System} (run : Reaches Move.IsFair (.new n c) h s) {i : FrameNo}
    {o : Occupant} (ho : s.pool.ledger.occupant? i = some o) (hio : o.io = .idle)
    (hclean : o.dirty = false)
    (hhandles : ∀ k x, s.handles.find? k = some x → x.stay.frame = i →
      x.stay.generation = s.pool.ledger.generation i → x.dirty = false) :
    s.files.page? o.file o.page = some (s.pool.buffer i) ∧
    ∀ f p, s.hasFile f →
      (s.setLedger (s.pool.ledger.vacate i (o.key s.labels))).content f p = s.content f p := by
  have hs := run.regular hn
  have hfaith := run.faithful hn hd ha
  have hload : o.io ≠ .busy .load := by simp [hio]
  have clean : s.IsClean i := by
    refine ⟨⟨o, ho, hio, hclean⟩, fun k x hk hx => ?_⟩
    obtain ⟨hi, hg⟩ := Stay.isAt_iff.1 hx
    exact hhandles k x hk hi hg
  have backed : s.files.page? o.file o.page = some (s.pool.buffer i) :=
    hfaith.backed i o.file o.page clean (Ledger.shown_eq_some.2 ⟨o, ho, hload, rfl, rfl⟩)
  exact ⟨backed, fun f p hf =>
    System.content_vacate hs hfaith.seated hfaith.distinct ho hload backed hf⟩

theorem distinct_small : System.small.files.Distinct := by
  intro f g hf hg _
  have hf : f < 1 := hf
  have hg : g < 1 := hg
  omega

theorem apart_small : System.small.files.Apart := by
  refine Catalog.apart_of_memory fun f x hf => ?_
  obtain ⟨hlt, rfl⟩ := Array.getElem?_eq_some_iff.1 hf
  obtain rfl : f = 0 := Nat.lt_one_iff.1 hlt
  exact ⟨_, rfl⟩

/-- Somebody asks for a new page, writes to it and gives it back. -/
def smallReturned : History × System := System.small.play
  [.begin 0 (.allocate 0 0), .resume 0 none, .resume 0 none, .resume 0 none,
    .begin 1 (.access 0 ⟨0, 0, 0, 1⟩ (.write fun q => q.set 0 1)), .resume 1 none, .resume 1 none,
    .release 0]

theorem reaches_smallReturned : Reaches Move.IsFair .small smallReturned.1 smallReturned.2 := by
  refine .play ⟨⟨rfl, Nat.zero_lt_one, rfl, nofun⟩, rfl, rfl, rfl, ⟨rfl, ⟨false, rfl⟩, nofun⟩, rfl, rfl,
    ⟨⟨_, rfl⟩, nofun⟩, trivial⟩ ?_
  simp [Move.IsFair, Fault.cuts]

/-- The page that was written to and given back is flushed, and the file has what the frame has. -/
theorem clean_frames_backed_small : ∃ h s, Reaches Move.IsFair .small h s ∧
    s.pool.buffer 0 = Page.zero.set 0 1 ∧ s.files.page? 0 0 = some (s.pool.buffer 0) := by
  -- The page is claimed, and then it is written.
  have flushed := ((reaches_smallReturned.move (m := .begin 2 .flushAll) ⟨rfl, trivial⟩ trivial).move
    (m := .resume 2 none) rfl rfl).move (m := .resume 2 none) rfl rfl
  refine ⟨_, _, flushed, rfl, ?_⟩
  exact (clean_frames_backed Nat.zero_lt_one distinct_small apart_small flushed (i := 0) rfl rfl rfl
    nofun).1

end SecondChance
