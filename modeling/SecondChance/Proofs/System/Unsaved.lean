import SecondChance.Proofs.System.FileBacking

/-!
Pages whose changes are not in their files yet.

While a page is dirty or being written back it stays where it is, until its file has its content.
And a borrower who has changed a page keeps it in its frame until the handle is given back, from
when on the page is dirty. So whoever looks for the changes of a page that are still to be written
finds them in one place, and finds a sign of them there.
-/

namespace SecondChance

/-- The page has been loaded, and it is dirty or being written back. -/
def Occupant.IsUnsaved (o : Occupant) : Prop :=
  o.io ≠ .busy .load ∧ (o.dirty = true ∨ o.io = .busy .writeBack)

namespace Ledger

/-- The page of a stay is in its frame with changes that may not be in its file. -/
def Unsaved (l : Ledger) (stay : Stay) : Prop :=
  ∃ o, (l.frame stay.frame).occupantAt stay.generation = some o ∧ o.file = stay.file ∧
    o.page = stay.page ∧ o.IsUnsaved

namespace Unsaved

variable {l l' : Ledger} {stay : Stay} {i : FrameNo} {o : Occupant} (h : l.Unsaved stay)
include h

theorem lt_size : stay.frame < l.size := by
  obtain ⟨o, hat, -⟩ := h
  exact lt_size_of_occupant? (occupantAt_frame.1 hat).2

theorem eased {labels : Labels} (he : l.Eased labels l') : l'.Unsaved stay := by
  obtain ⟨o, hat, hf, hp, hu⟩ := h
  obtain ⟨hg, ho⟩ := occupantAt_frame.1 hat
  obtain ⟨hg', ⟨r, hr⟩ | ⟨hs, hd⟩⟩ := he.after ho
  · exact ⟨_, occupantAt_frame.2 ⟨hg'.trans hg, hr⟩, hf, hp, hu⟩
  · have hio := (Occupant.standing_eq_available.1 hs).2
    have hno : ¬ o.IsUnsaved := by simp [Occupant.IsUnsaved, hio, hd]
    exact (hno hu).elim

theorem setOccupant {q : Occupant} (ho : l.occupant? i = some o) (hf : q.file = o.file)
    (hp : q.page = o.page) (hq : i = stay.frame → o.IsUnsaved → q.IsUnsaved) :
    (l.setOccupant i q).Unsaved stay := by
  obtain ⟨r, hat, hrf, hrp, hu⟩ := h
  obtain ⟨hg, hr⟩ := occupantAt_frame.1 hat
  have hnew := occupant?_setOccupant (lt_size_of_occupant? ho) q stay.frame
  have hgen := (generation_setOccupant l i stay.frame q).trans hg
  by_cases hi : i = stay.frame
  · rw [if_pos hi] at hnew
    obtain rfl : o = r := by
      rw [hi, hr] at ho
      exact (Option.some.inj ho).symm
    exact ⟨q, occupantAt_frame.2 ⟨hgen, hnew⟩, hf.trans hrf, hp.trans hrp, hq hi hu⟩
  · rw [if_neg hi] at hnew
    exact ⟨r, occupantAt_frame.2 ⟨hgen, hnew.trans hr⟩, hrf, hrp, hu⟩

theorem vacate (ho : l.occupant? i = some o) (hn : ¬ o.IsUnsaved) (k : PageKey) :
    (l.vacate i k).Unsaved stay := by
  obtain ⟨r, hat, hrf, hrp, hu⟩ := h
  obtain ⟨hg, hr⟩ := occupantAt_frame.1 hat
  have hi : i ≠ stay.frame := by
    rintro rfl
    rw [ho] at hr
    exact hn (Option.some.inj hr ▸ hu)
  have hold := occupant?_vacate (lt_size_of_occupant? ho) k stay.frame
  rw [if_neg hi] at hold
  exact ⟨r, occupantAt_frame.2 ⟨(generation_vacate ..).trans hg, hold.trans hr⟩, hrf, hrp, hu⟩

theorem install (hi : i < l.size) (ho : l.occupant? i = none) (k : PageKey) (file : FileNo)
    (page : PageNo) : (l.install i k file page).Unsaved stay := by
  obtain ⟨r, hat, hrf, hrp, hu⟩ := h
  obtain ⟨hg, hr⟩ := occupantAt_frame.1 hat
  have hne : i ≠ stay.frame := by
    rintro rfl
    rw [ho] at hr
    cases hr
  have hold := occupant?_install hi k file page stay.frame
  have hgen := generation_install hi k file page stay.frame
  rw [if_neg hne] at hold hgen
  exact ⟨r, occupantAt_frame.2 ⟨hgen.trans hg, hold.trans hr⟩, hrf, hrp, hu⟩

end Unsaved

end Ledger

namespace System

variable {s s' : System} {ks k : List Mark} {stay : Stay} {t : TaskId}

theorem Regular.unsaved_settle (hs : s.Regular) {x : Transfer} (hx : s.transferOf t = some x)
    (ok : Bool) (hu : s.pool.ledger.Unsaved stay) :
    (s.pool.ledger.settle s.labels x ok).Unsaved stay ∨
      (ok = true ∧ x.kind = .writeBack ∧ x.stay.frame = stay.frame) := by
  obtain ⟨kind, y⟩ := x
  obtain ⟨o, hat, -, ho, hio⟩ := hs.seat hx
  have loading (hk : kind = .load) : ¬ o.IsUnsaved := fun hu => hu.1 (by rw [hio, hk])
  cases ok with
  | true =>
    rw [Ledger.settle_succeeded hat hio]
    cases kind with
    | load => exact .inl (hu.setOccupant ho rfl rfl fun _ hn => (loading rfl hn).elim)
    | writeBack =>
      by_cases hf : y.frame = stay.frame
      · exact .inr ⟨rfl, rfl, hf⟩
      · exact .inl (hu.setOccupant ho rfl rfl fun he => (hf he).elim)
  | false =>
    left
    cases kind with
    | load =>
      rw [Ledger.settle_load_failed hat hio]
      exact hu.vacate ho (loading rfl) _
    | writeBack =>
      rw [Ledger.settle_writeBack_failed hat hio]
      refine hu.setOccupant ho rfl rfl fun _ _ => ?_
      simp [Occupant.IsUnsaved]

theorem Regular.page_of_unsaved (hs : s.Regular) {x : Transfer} (hx : s.transferOf t = some x)
    (hu : s.pool.ledger.Unsaved stay) (hframe : x.stay.frame = stay.frame) :
    x.stay.file = stay.file ∧ x.stay.page = stay.page := by
  obtain ⟨o, ho, -, hf, hp⟩ := hs.escorted.occupantAt hx
  obtain ⟨q, hq, hqf, hqp, -⟩ := hu
  have ho := (Ledger.occupantAt_frame.1 ho).2
  have hq := (Ledger.occupantAt_frame.1 hq).2
  obtain rfl : o = q := by
    rw [hframe, hq] at ho
    exact (Option.some.inj ho).symm
  exact ⟨hf.symm.trans hqf, hp.symm.trans hqp⟩

theorem isStored_of_written (hs : s.Regular) (hs' : s'.Regular) (h : s.Faithful ks)
    (hx : s.transferOf t = some ⟨.writeBack, stay⟩) {fault : Option Fault} {files : Catalog}
    (hr : s.files.write fault stay.file stay.page (.page (s.pool.buffer stay.frame)) =
      (files, .ok ())) (hl : s'.pool.ledger = s.pool.ledger.settle s.labels ⟨.writeBack, stay⟩ true)
    (hb : s'.pool.buffers = s.pool.buffers) (hf : s'.files = files) :
    s'.IsStored stay.file stay.page := by
  obtain ⟨o, hat, -, ho, hio⟩ := hs.seat hx
  rw [Ledger.settle_succeeded hat hio] at hl
  have hshown : s'.pool.ledger.shown stay.frame = some (stay.file, stay.page) := by
    have hsame := Ledger.shown_setOccupant (q := { o with io := .idle }) ho rfl rfl
      (by simp [hio]) stay.frame
    rw [hl, hsame, hs.shown_of_writeBack hx]
  obtain ⟨-, ⟨-, e, he⟩ | hp⟩ := Catalog.write_cases h.apart hr
  · cases he
  · refine isStored_of_shown hs' hshown ?_
    rw [hf, hp, if_pos ⟨rfl, rfl⟩, buffer_congr hb]

/-- A page with changes that may not be in its file stays where it is, until its file has what it
contains. -/
theorem Act.unsaved (a : Act s k s') (hs : s.Regular) (hk : ∀ x ∈ k, x.IsFair)
    (h : s.Faithful ks) (hu : s.pool.ledger.Unsaved stay) :
    s'.pool.ledger.Unsaved stay ∨ s'.IsStored stay.file stay.page := by
  have hs' := a.regular hs
  have settled {t : TaskId} {x : Transfer} {ok : Bool} (hx : s.transferOf t = some x)
      (hfail : ok = false ∨ x.kind = .load) :
      (s.pool.ledger.settle s.labels x ok).Unsaved stay := by
    rcases hs.unsaved_settle hx ok hu with hu | ⟨rfl, hw, -⟩
    · exact hu
    · rcases hfail with hf | hf
      · cases hf
      · exact nomatch hw.symm.trans hf
  cases a with
  | ease he => exact .inl (hu.eased he)
  | expel ht => exact (Bool.false_ne_true (h.undisposed ht).symm).elim
  | hit ht hk ho => exact .inl (hu.setOccupant ho rfl rfl fun _ => id)
  | install ht hk hi ho => exact .inl (hu.install hi ho _ _ _)
  | claim ht hp ho hio hd =>
    refine .inl (hu.setOccupant ho rfl rfl fun _ _ => ?_)
    simp [Occupant.IsUnsaved, Occupant.claimed]
  | loaded ht => exact .inl (settled (transferOf_eq ht) (.inr rfl))
  | lost ht hx => exact .inl (settled ((transferOf_eq ht).trans hx) (.inl rfl))
  | unwritten ht hx => exact .inl (settled ((transferOf_eq ht).trans hx) (.inl rfl))
  | @wrote t _ _ y _ files ht hx hr =>
    have hx' := (transferOf_eq ht).trans hx
    rcases hs.unsaved_settle hx' true hu with hu' | ⟨-, -, hframe⟩
    · exact .inl hu'
    · -- The page that has been written is the one that was unsaved.
      have hstored := isStored_of_written hs hs' h hx' hr rfl rfl rfl
      obtain ⟨hf, hp⟩ := hs.page_of_unsaved hx' hu hframe
      right
      rw [← hf, ← hp]
      exact hstored
  | giveBack hh hi hr =>
    cases Ledger.unpinStay_cases hr with
    | stale | unpinned => exact .inl hu
    | ok ho =>
      refine .inl (hu.setOccupant (Ledger.occupantAt_frame.1 ho).2 rfl rfl fun _ hq => ?_)
      obtain ⟨hio, hd | hw⟩ := hq
      · exact ⟨hio, .inl (by simp [Occupant.returned, hd])⟩
      · exact ⟨hio, .inr hw⟩
  | detach | unpin => exact (hk _ (List.mem_singleton_self _)).elim
  | @enter _ _ _ purpose => cases purpose <;> exact .inl hu
  | _ => exact .inl hu

/-! ### Changes that have not been given back -/

/-- A handle that will come back dirty is for a page that has been loaded. -/
def Withholds (s : System) (stay : Stay) (j : HandleNo) : Prop :=
  s.handles.find? j = some ⟨stay, true⟩ ∧
    ∃ o, (s.pool.ledger.frame stay.frame).occupantAt stay.generation = some o ∧ o.io ≠ .busy .load

/-- A borrower who has changed a page keeps it there, and once the handle is given back the page is
dirty. -/
theorem Act.withholds (a : Act s k s') (hs : s.Regular) (hk : ∀ x ∈ k, x.IsFair)
    (h : s.Faithful ks) {j : HandleNo} (hw : s.Withholds stay j) :
    s'.Withholds stay j ∨ s'.pool.ledger.Unsaved stay := by
  obtain ⟨hj, o, hat, hio⟩ := hw
  obtain ⟨hg, ho⟩ := Ledger.occupantAt_frame.1 hat
  have hpins : o.pins ≠ 0 := pins_ne_zero h.accounted hj hat
  obtain ⟨hg', o', ho', hio'⟩ := (a.turnover hs).forth ho hpins hio
  have hat' := Ledger.occupantAt_frame.2 ⟨hg'.trans hg, ho'⟩
  have held (hj' : s'.handles.find? j = some ⟨stay, true⟩) : s'.Withholds stay j :=
    ⟨hj', o', hat', hio'⟩
  cases a with
  | hit ht | loaded ht => exact .inl (held (find?_lendTo_of_old (hs.orderly.unfilled ht rfl) hj _))
  | @enter _ _ _ purpose =>
    cases purpose with
    | read => exact .inl (held hj)
    | write => exact .inl (held (find?_markDirty_of_dirty hj rfl))
  | @giveBack i x l r hh hi hr =>
    by_cases hij : i = j
    · subst hij
      right
      obtain rfl : x = ⟨stay, true⟩ := Option.some.inj (hh.symm.trans hj)
      obtain ⟨hf, hp⟩ := h.seated.placed hj hat
      cases Ledger.unpinStay_cases hr with
      | stale hn => exact nomatch hat.symm.trans hn
      | unpinned hn hz => exact (pins_ne_zero h.accounted hj hn hz).elim
      | @ok q hq =>
        obtain rfl : o = q := Option.some.inj (hat.symm.trans hq)
        have hnew := Ledger.occupant?_setOccupant (Ledger.lt_size_of_occupant? ho) (o.returned true)
          stay.frame
        rw [if_pos rfl] at hnew
        have hgen := (Ledger.generation_setOccupant s.pool.ledger stay.frame stay.frame
          (o.returned true)).trans hg
        refine ⟨o.returned true, Ledger.occupantAt_frame.2 ⟨hgen, hnew⟩, hf, hp, hio, .inl ?_⟩
        simp [Occupant.returned]
    · exact .inl (held ((find?_detach_of_ne hij).trans hj))
  | detach => exact (hk _ (List.mem_singleton_self _)).elim
  | markDirty => exact .inl (held (find?_markDirty_of_dirty hj rfl))
  | _ => exact .inl (held hj)

/-! ### Several acts -/

section Acts

variable {f : FileNo} {p : PageNo} (a : Acts s k s') (h : s.Sound ks) (hk : ∀ x ∈ k, x.IsFair)
include a h hk

theorem Acts.isStored (hf : s.hasFile f) (hno : ∀ x ∈ k, ¬ x.IsEditOf f p)
    (stored : s.IsStored f p) : s'.IsStored f p := by
  rcases a.kept_or_stored h hf hk hno with ⟨hfile, hcontent⟩ | stored'
  · exact hfile.trans (stored.trans hcontent.symm)
  · exact stored'

variable (hf : s.hasFile stay.file) (hno : ∀ x ∈ k, ¬ x.IsEditOf stay.file stay.page)
include hf hno

theorem Acts.unsaved (hu : s.pool.ledger.Unsaved stay) :
    s'.pool.ledger.Unsaved stay ∨ s'.IsStored stay.file stay.page := by
  refine a.keep (P := fun s => s.pool.ledger.Unsaved stay ∨ s.IsStored stay.file stay.page)
    (fun h hf hk hno a before => ?_) h hf hk hno (.inl hu)
  rcases before with hu | stored
  · exact a.unsaved h.regular hk h.faithful hu
  · exact .inr ((Acts.one a).isStored h hk hf hno stored)

theorem Acts.withholds {j : HandleNo} (hw : s.Withholds stay j) :
    s'.Withholds stay j ∨ s'.pool.ledger.Unsaved stay ∨ s'.IsStored stay.file stay.page := by
  refine a.keep (P := fun s => s.Withholds stay j ∨ s.pool.ledger.Unsaved stay ∨
    s.IsStored stay.file stay.page) (fun h hf hk hno a before => ?_) h hf hk hno (.inl hw)
  rcases before with hw | hu | stored
  · exact (a.withholds h.regular hk h.faithful hw).imp_right .inl
  · exact .inr (a.unsaved h.regular hk h.faithful hu)
  · exact .inr (.inr ((Acts.one a).isStored h hk hf hno stored))

end Acts

end System

end SecondChance
