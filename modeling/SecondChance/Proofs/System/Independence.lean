import SecondChance.Proofs.System.FlushAgreement
import SecondChance.Proofs.System.DisposalAgreement

/-!
How many frames a pool has makes no difference to what is done with it.

Whoever runs one errand after the other, each of them chosen in view of what has become of the
others, is told what a desk would tell. A desk has no frames. So two pools of any sizes over the
same files come to the same, and once they have been flushed their files have the same pages.
-/

namespace SecondChance

theorem Table.isEmpty_of_find? {κ β : Type} [DecidableEq κ] {t : Table κ β}
    (h : ∀ k, t.find? k = none) : t.entries.isEmpty = true := by
  rw [List.isEmpty_iff, List.eq_nil_iff_forall_not_mem]
  intro e he
  cases (h e.1).symm.trans ((t.mem_entries_iff e.1 e.2).1 he)

namespace System

variable {s : System} {d : Desk}

theorem Stands.new {n : Nat} (hn : 0 < n) {c : Catalog} (hd : c.Distinct) (ha : c.Apart) :
    (System.new n c).Stands ⟨c, none⟩ where
  mirrors := ⟨[], .new hn hd ha⟩
  lends := ⟨fun _ => rfl, fun _ => rfl, fun hl => by cases hl⟩

theorem Stands.serve (h : s.Stands d) (still : s.Quiescent) (x : Errand) :
    Agree (s.serve x) (d.serve x) := by
  obtain ⟨ks, mirrors⟩ := h.mirrors
  unfold System.serve Desk.serve
  rw [Catalog.size_of_registry mirrors.registry, h.lends.isSome_eq]
  by_cases fits : x.fits d.files.files.size d.lent.isSome = true
  · rw [if_pos fits, if_pos fits]
    cases x with
    | fetch f p =>
      obtain ⟨hf, hd⟩ : f < d.files.files.size ∧ d.lent = none := by simpa [Errand.fits] using fits
      exact agree_fetch h still hf hd p
    | allocate f =>
      obtain ⟨hf, hd⟩ : f < d.files.files.size ∧ d.lent = none := by simpa [Errand.fits] using fits
      exact agree_allocate h still hf hd
    | read =>
      obtain ⟨⟨f, p⟩, hd⟩ := Option.isSome_iff_exists.1 fits
      simp only [hd]
      exact agree_read h still hd
    | edit e =>
      obtain ⟨⟨f, p⟩, hd⟩ := Option.isSome_iff_exists.1 fits
      simp only [hd]
      exact agree_edit h still hd e
    | release =>
      obtain ⟨⟨f, p⟩, hd⟩ := Option.isSome_iff_exists.1 fits
      exact agree_release h still hd
    | dispose f p => exact agree_dispose h still (by simpa [Errand.fits] using fits) p
    | flushFile f => exact agree_flushFile h still (by simpa [Errand.fits] using fits)
    | flushAll => exact agree_flushAll h still
  · rw [if_neg fits, if_neg fits]
    exact ⟨still, h, rfl⟩

/-! ### Programs -/

/-- Runs a program for so many errands. Each of them is chosen in view of what has become of the
others, the last one first. -/
def follow (program : List Reply → Errand) (s : System) : Nat → System × List Reply
  | 0 => (s, [])
  | k + 1 =>
    let (s, replies) := follow program s k
    let (s, reply) := s.serve (program replies)
    (s, reply.unplaced :: replies)

end System

namespace Desk

/-- Runs a program for so many errands. -/
def follow (program : List Reply → Errand) (d : Desk) : Nat → Desk × List Reply
  | 0 => (d, [])
  | k + 1 =>
    let (d, replies) := follow program d k
    let (d, reply) := d.serve (program replies)
    (d, reply :: replies)

theorem serve_ne_stuck (d : Desk) (x : Errand) : (d.serve x).2 ≠ .stuck := by
  unfold Desk.serve
  split
  · split <;> exact fun stuck => by cases stuck
  · exact fun stuck => by cases stuck

theorem stuck_not_mem_follow (program : List Reply → Errand) (d : Desk) (k : Nat) :
    .stuck ∉ (d.follow program k).2 := by
  induction k with
  | zero => exact List.not_mem_nil
  | succ k ih =>
    intro stuck
    rcases List.mem_cons.1 stuck with now | before
    · exact serve_ne_stuck _ _ now.symm
    · exact ih before

end Desk

namespace System

variable {s : System} {d : Desk}

/-- A program comes to the same at a pool and at the desk for which it stands. -/
theorem Stands.follow (h : s.Stands d) (still : s.Quiescent) (program : List Reply → Errand)
    (k : Nat) : (s.follow program k).1.Quiescent ∧
      (s.follow program k).1.Stands (d.follow program k).1 ∧
      (s.follow program k).2 = (d.follow program k).2 := by
  induction k with
  | zero => exact ⟨still, h, rfl⟩
  | succ k ih =>
    obtain ⟨still', stands, replies⟩ := ih
    have agree := stands.serve still' (program (d.follow program k).2)
    simp only [System.follow, Desk.follow, replies]
    exact ⟨agree.quiescent, agree.stands, by rw [agree.reply]⟩

theorem Stands.isIdle_eq (h : s.Stands d) (still : s.Quiescent) : s.isIdle = d.lent.isNone := by
  cases hd : d.lent with
  | none =>
    have tasks := Table.isEmpty_of_find? still.idle
    have handles := Table.isEmpty_of_find? (h.lends.find?_eq_none hd)
    simp only [Site.isIdle, handles, tasks]
    rfl
  | some fp =>
    obtain ⟨x, hx, -⟩ := h.lends.page hd
    refine Bool.eq_false_iff.2 fun idle => ?_
    cases hx.symm.trans ((find?_of_isIdle idle).1 0)

end System

/-! ### What is left in the files -/

/-- The files have the same pages with the same content, and the same numbers are free. -/
structure Catalog.Equals (c c' : Catalog) : Prop where
  size : c.files.size = c'.files.size
  pageCount {f : FileNo} (hf : f < c.files.size) : c.pageCount f = c'.pageCount f
  isLive {f : FileNo} (hf : f < c.files.size) (p : PageNo) : c.isLive f p = c'.isLive f p
  page? {f : FileNo} (hf : f < c.files.size) (p : PageNo) : c.page? f p = c'.page? f p

namespace Catalog.Equals

variable {c c' c'' : Catalog}

theorem symm (h : c.Equals c') : c'.Equals c where
  size := h.size.symm
  pageCount hf := (h.pageCount (h.size ▸ hf)).symm
  isLive hf p := (h.isLive (h.size ▸ hf) p).symm
  page? hf p := (h.page? (h.size ▸ hf) p).symm

theorem trans (h : c.Equals c') (h' : c'.Equals c'') : c.Equals c'' where
  size := h.size.trans h'.size
  pageCount hf := (h.pageCount hf).trans (h'.pageCount (h.size ▸ hf))
  isLive hf p := (h.isLive hf p).trans (h'.isLive (h.size ▸ hf) p)
  page? hf p := (h.page? hf p).trans (h'.page? (h.size ▸ hf) p)

theorem of_shape (size : c.files.size = c'.files.size) (shape : c.shape? = c'.shape?)
    (pages : ∀ {f}, f < c.files.size → ∀ p, c.page? f p = c'.page? f p) : c.Equals c' where
  size := size
  pageCount {f} hf := by
    obtain ⟨x, hx⟩ := exists_shape hf
    rw [(isLive_of_shape hx 0).1, (isLive_of_shape (shape ▸ hx) 0).1]
  isLive {f} hf p := by
    obtain ⟨x, hx⟩ := exists_shape hf
    rw [(isLive_of_shape hx p).2, (isLive_of_shape (shape ▸ hx) p).2]
  page? := pages

end Catalog.Equals

namespace System

variable {s : System} {d : Desk}

/-- Once nothing is on loan and everything has been flushed, the files behind the pool are those of
the desk. -/
theorem Stands.flushed (h : s.Stands d) (still : s.Quiescent) (idle : s.isIdle = true) :
    (s.serve .flushAll).2 = .ended .done ∧ (s.serve .flushAll).1.files.Equals d.files := by
  have hd : d.lent = none := by
    rw [h.isIdle_eq still] at idle
    exact Option.isNone_iff_eq_none.1 idle
  obtain ⟨-, stands, reply⟩ := h.serve still .flushAll
  have stored {f : FileNo} (hf : f < d.files.files.size) (p : PageNo) :
      (s.serve .flushAll).1.IsStored f p := isStored_flushAll h still hd hf p
  have done : d.serve .flushAll = (d, .ended .done) := rfl
  rw [done] at stands reply
  generalize s.serve .flushAll = x at stands reply stored ⊢
  obtain ⟨s', r⟩ := x
  obtain ⟨ks, mirrors⟩ := stands.mirrors
  have size : s'.files.files.size = d.files.files.size := Catalog.size_of_registry mirrors.registry
  refine ⟨?_, .of_shape size mirrors.shape? fun {f} hf p => ?_⟩
  · cases r with
    | ended r => cases r with
      | done => rfl
      | _ => cases reply
    | _ => cases reply
  · rw [stored (size ▸ hf) p, mirrors.content hf]

end System

/-- Whatever is done with two pools of any sizes over the same files, one thing after the other:
every errand comes to its end with the same result, apart from the numbers of frames. Something is
on loan from both pools or from none; and once nothing is, both can be flushed, and then their files
have the same pages with the same content and the same free numbers. -/
theorem pool_size_irrelevant {n n' : Nat} (hn : 0 < n) (hn' : 0 < n') {c : Catalog}
    (hd : c.Distinct) (ha : c.Apart) (program : List Reply → Errand) (k : Nat) {s s' : System}
    {replies replies' : List Reply} (run : (System.new n c).follow program k = (s, replies))
    (run' : (System.new n' c).follow program k = (s', replies')) :
    replies = replies' ∧ .stuck ∉ replies ∧ s.isIdle = s'.isIdle ∧
      (s.isIdle = true →
        (s.serve .flushAll).2 = .ended .done ∧ (s'.serve .flushAll).2 = .ended .done ∧
        (s.serve .flushAll).1.files.Equals (s'.serve .flushAll).1.files) := by
  obtain ⟨still, stands, same⟩ := (System.Stands.new hn hd ha).follow (.new hn c) program k
  obtain ⟨still', stands', same'⟩ := (System.Stands.new hn' hd ha).follow (.new hn' c) program k
  rw [run] at still stands same
  rw [run'] at still' stands' same'
  have idle : s.isIdle = s'.isIdle := by rw [stands.isIdle_eq still, stands'.isIdle_eq still']
  refine ⟨same.trans same'.symm, ?_, idle, fun closing => ?_⟩
  · rw [show replies = _ from same]
    exact Desk.stuck_not_mem_follow program _ k
  · obtain ⟨done, equals⟩ := stands.flushed still closing
    obtain ⟨done', equals'⟩ := stands'.flushed still' (idle ▸ closing)
    exact ⟨done, done', equals.trans equals'.symm⟩

/-- A page is changed and given back, another one is asked for, and then the first one is read. -/
def smallErrands (replies : List Reply) : Errand :=
  [.allocate 0, .edit fun q => q.patch 0 [1], .release, .allocate 0, .release, .fetch 0 0, .read,
    .release].getD replies.length .flushAll

def smallFollowed (n : Nat) : System × List Reply :=
  (System.new n System.small.files).follow smallErrands 8

/-- Where there is one frame the page has been written back in between, where there are two it has
not. The borrower cannot tell, and once both pools are flushed their files are the same. -/
theorem pool_size_irrelevant_small : (smallFollowed 1).2 = (smallFollowed 2).2 ∧
    (smallFollowed 2).2[1]? = some (.ended (.content (Page.zero.patch 0 [1]))) ∧
    (smallFollowed 1).1.files.page? 0 0 = some (Page.zero.patch 0 [1]) ∧
    (smallFollowed 2).1.files.page? 0 0 = some .zero ∧
    ((smallFollowed 1).1.serve .flushAll).1.files.Equals
      ((smallFollowed 2).1.serve .flushAll).1.files := by
  obtain ⟨same, -, -, flushed⟩ := pool_size_irrelevant Nat.zero_lt_one Nat.zero_lt_two
    distinct_small apart_small smallErrands 8 (rfl : _ = smallFollowed 1)
    (rfl : _ = smallFollowed 2)
  exact ⟨same, rfl, rfl, rfl, (flushed rfl).2.2⟩

end SecondChance
