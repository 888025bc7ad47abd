import SecondChance.Proofs.Store.Shapes

/-!
What calls keep of open files, whatever they meet.

A call turns the shape of a file into another one, or is refused and leaves everything as it is. So
files on disk remain apart, and they remain *tidy*: the slot of a number that is free has zeros in
it, because nobody can write to a page that is deleted and deleting has zeroed it. A page that is
handed out is therefore a page of zeros, no matter what was there under its number before.
-/

namespace SecondChance

namespace Shape

/-- What a call can make of a shape. -/
inductive Becomes (x : Shape) : Shape → Prop
  | same : Becomes x x
  | taken (n : PageNo) : Becomes x (x.take n)
  | freed (n : PageNo) : Becomes x (x.free n)

variable {x y : Shape} {p : PageNo}

theorem Becomes.blank (h : x.Becomes y) (blank : ∀ n, x.blank n = .zero) (n : PageNo) :
    y.blank n = .zero := by
  cases h with
  | same | freed => exact blank n
  | taken k =>
    show (if k = n then Page.zero else x.blank n) = .zero
    split
    · rfl
    · exact blank n

/-- The number that is handed out next is the lowest one that is free, or the first one behind all
others. -/
theorem next?_least (h : x.next? = some p) :
    x.live[p]?.getD false = false ∧ p ≤ x.live.length ∧ ∀ k < p, x.live[k]?.getD false = true := by
  unfold next? at h
  cases hf : x.live.findIdx? (· == false) with
  | some n =>
    rw [hf, Option.some_or] at h
    obtain rfl := Option.some.inj h
    obtain ⟨hlt, free, least⟩ := List.findIdx?_eq_some_iff_getElem.1 hf
    refine ⟨by simpa [hlt] using free, Nat.le_of_lt hlt, fun k hk => ?_⟩
    have taken := least k hk
    simpa [Nat.lt_trans hk hlt] using taken
  | none =>
    obtain rfl : x.live.length = p := by
      rw [hf, Option.none_or] at h
      split at h
      · cases h
      · exact Option.some.inj h
    refine ⟨by simp, Nat.le_refl _, fun k hk => ?_⟩
    have taken := List.findIdx?_eq_none_iff.1 hf _ (List.getElem_mem hk)
    simpa [hk] using taken

theorem live_take (hp : p ≤ x.live.length) : (x.take p).live[p]?.getD false = true := by
  simp only [take]
  split
  · next hlt => simp [hlt]
  · next hge =>
    obtain rfl : x.live.length = p := Nat.le_antisymm (Nat.le_of_not_lt hge) hp
    simp

end Shape

namespace Catalog

variable {c c' : Catalog} {fault : Option Fault} {f : FileNo} {n p : PageNo} {q : Page}

def Served (c c' : Catalog) : Prop :=
  c' = c ∨ ∃ f x y pages, c.shape? f = some x ∧ x.Becomes y ∧ c.Revises f y pages c'

/-- The files are apart, and the slots of numbers that are free have zeros in them. -/
structure Tidy (c : Catalog) : Prop where
  apart : c.Apart
  blank {f : FileNo} {x : Shape} (hx : c.shape? f = some x) (n : PageNo) : x.blank n = .zero

theorem Served.apart (h : c.Served c') (ha : c.Apart) : c'.Apart := by
  rcases h with rfl | ⟨_, _, _, _, -, -, revises⟩
  · exact ha
  · exact revises.apart

theorem Served.tidy (h : c.Served c') (tidy : c.Tidy) : c'.Tidy := by
  refine ⟨h.apart tidy.apart, fun {g z} hz n => ?_⟩
  rcases h with rfl | ⟨f, x, y, _, hx, becomes, revises⟩
  · exact tidy.blank hz n
  · rw [revises.shape?] at hz
    split at hz
    · obtain rfl := Option.some.inj hz
      exact becomes.blank (tidy.blank hx) n
    · exact tidy.blank hz n

/-- No page of a file on disk has been deleted since the file was opened. -/
def Undeleted (c : Catalog) : Prop :=
  ∀ (f : FileNo) (x : OpenFile) (d : DiskStore), c.files[f]? = some x → x.store = .disk d →
    ∀ n : PageNo, d.live[n]? ≠ some false

theorem tidy_of_undeleted (ha : c.Apart) (h : c.Undeleted) : c.Tidy := by
  refine ⟨ha, fun {f x} hx n => ?_⟩
  obtain ⟨⟨id, name, store⟩, hf, rfl⟩ := Option.map_eq_some_iff.1 hx
  cases store with
  | memory m => rfl
  | disk d => exact if_neg (h f _ d hf rfl n)

/-! ### Opening files -/

theorem undeleted_empty : empty.Undeleted := by
  intro f x d hf
  simp [empty] at hf

theorem Undeleted.add {name : String} {store : Store} (h : c.Undeleted)
    (whole : ∀ d, store = .disk d → ∀ n : PageNo, d.live[n]? ≠ some false) :
    (c.add name store).1.Undeleted := by
  intro f x d hf hd
  rcases Nat.lt_trichotomy f c.files.size with old | rfl | beyond
  · rw [Catalog.add, Array.getElem?_push_lt old, ← Array.getElem?_eq_getElem] at hf
    exact h f x d hf hd
  · obtain rfl := Option.some.inj (Array.getElem?_push_size.symm.trans hf)
    exact whole d hd
  · rw [Catalog.add, Array.getElem?_eq_none (by simp; omega)] at hf
    cases hf

theorem Undeleted.openMemory (h : c.Undeleted) (name : String) (limit : Option Nat) :
    (c.openMemory name limit).1.Undeleted := h.add nofun

theorem Undeleted.openDisk (h : c.Undeleted) (path : String) : (c.openDisk path).1.Undeleted := by
  unfold Catalog.openDisk
  split
  · exact h
  · next drive place hopen =>
    split
    · exact h
    · next d hd =>
      refine Undeleted.add (c := { c with drive := drive }) h ?_
      intro _ same n deleted
      cases same
      unfold DiskStore.ofBytes at hd
      split at hd
      · obtain rfl := Except.ok.inj hd
        simp [Array.getElem?_replicate] at deleted
      · cases hd

/-! ### Calls -/

theorem exists_page? (ha : c.Apart) (hl : c.isLive f n = true) : ∃ q, c.page? f n = some q := by
  obtain ⟨x, hf, hl⟩ : ∃ x, c.files[f]? = some x ∧ x.store.isLive n = true := by
    simpa [isLive, Option.any_eq_true] using hl
  rw [page?_eq hf]
  cases hs : x.store with
  | memory m =>
    rw [hs] at hl
    exact Option.isSome_iff_exists.1 hl
  | disk d =>
    rw [hs] at hl
    obtain ⟨q, -, hq⟩ := DiskStore.exists_pageIn (ha.whole hf hs) hl
    exact ⟨q, hq⟩

theorem files_of_shape? (hx : c.shape? f = none) : c.files[f]? = none := Option.map_eq_none_iff.1 hx

section Calls

variable (ha : c.Apart)
include ha

theorem served_read : c.Served (c.read fault f n (.page q)).1 := by
  rw [read_eq]
  refine Fault.disturb_fst (.inl rfl) ?_
  cases hx : c.shape? f with
  | none =>
    simp only [read, Fault.disturb_none, files_of_shape? hx]
    exact .inl rfl
  | some x => exact .inr ⟨f, x, x, _, hx, .same, (read_whole ha hx).1⟩

theorem served_write : c.Served (c.write fault f n (.page q)).1 := by
  have whole : c.Served (c.write none f n (.page q)).1 := by
    cases hx : c.shape? f with
    | none =>
      simp only [write, Fault.disturb_none, files_of_shape? hx]
      exact .inl rfl
    | some x => exact .inr ⟨f, x, x, _, hx, .same, (write_whole ha hx).1⟩
  exact Fault.disturb_fst (.inl rfl) whole

theorem served_allocate : c.Served (c.allocate fault f).1 := by
  have whole : c.Served (c.allocate none f).1 := by
    cases hx : c.shape? f with
    | none =>
      simp only [allocate, Fault.disturb_none, files_of_shape? hx]
      exact .inl rfl
    | some x =>
      refine .inr ⟨f, x, _, _, hx, ?_, (allocate_whole ha hx).1⟩
      cases x.next? with
      | none => exact .same
      | some n => exact .taken n
  exact Fault.disturb_fst (.inl rfl) whole

theorem served_delete : c.Served (c.delete fault f n).1 := by
  have whole : c.Served (c.delete none f n).1 := by
    cases hx : c.shape? f with
    | none =>
      simp only [delete, Fault.disturb_none, files_of_shape? hx]
      exact .inl rfl
    | some x => exact .inr ⟨f, x, _, _, hx, .freed n, (delete_whole ha hx).1⟩
  exact Fault.disturb_fst (.inl rfl) whole

theorem page?_delete_of_ne {g : FileNo} {k : PageNo} (hne : ¬ (f = g ∧ n = k)) :
    (c.delete fault f n).1.page? g k = c.page? g k := by
  have whole : (c.delete none f n).1.page? g k = c.page? g k := by
    cases hx : c.shape? f with
    | none => simp only [delete, Fault.disturb_none, files_of_shape? hx]
    | some x =>
      rw [(delete_whole ha hx).1.page?]
      by_cases hg : f = g
      · subst hg
        rw [if_pos rfl, if_neg fun hk => hne ⟨rfl, hk⟩]
      · rw [if_neg hg]
  exact Fault.disturb_fst (P := fun c' : Catalog => c'.page? g k = c.page? g k) rfl whole

/-- A page that the file has can be deleted, so whatever refuses to do so has done nothing. -/
theorem delete_refused (hl : c.isLive f n = true) {e : StoreError}
    (hr : (c.delete fault f n).2 = .error e) (early : ∀ text, fault ≠ some (.lateIo text)) :
    (c.delete fault f n).1 = c := by
  have done : (c.delete none f n).2 = .ok () := by
    cases hx : c.shape? f with
    | none => simp [isLive, files_of_shape? hx] at hl
    | some x =>
      rw [(delete_whole ha hx).2]
      obtain ⟨q, hq⟩ := exists_page? ha hl
      rw [hq]
      rfl
  have disturbed : c.delete fault f n =
      Fault.disturb fault (c.labels f).name n (fun c => c.delete none f n) c := rfl
  rw [disturbed] at hr ⊢
  cases fault with
  | none => cases done.symm.trans hr
  | some x =>
    cases x with
    | lateIo text => exact (early text rfl).elim
    | short => cases done.symm.trans hr
    | _ => rfl

end Calls

/-- A page that has just been handed out was not there before. Its number was the lowest one free,
or the first one behind all others, and the page contains zeros. -/
theorem Tidy.allocated (h : c.Tidy) (hr : (c.allocate fault f).2 = .ok p) :
    c.isLive f p = false ∧ p ≤ c.pageCount f ∧ (∀ k < p, c.isLive f k = true) ∧
      (c.allocate fault f).1.page? f p = some .zero ∧
      (c.allocate fault f).1.isLive f p = true := by
  have undisturbed : (c.allocate none f).2 = .ok p := Fault.disturb_ok hr
  have same : (c.allocate fault f).1 = (c.allocate none f).1 := by
    have disturbed : Fault.disturb fault (c.labels f).name 0 (fun c => c.allocate none f) c =
      (_, _) := (rfl : c.allocate fault f = (_, _))
    rcases Fault.disturb_cases disturbed with ⟨-, e, he⟩ | ⟨h, -⟩
    · cases he.symm.trans hr
    · exact h
  rw [same]
  cases hx : c.shape? f with
  | none =>
    simp only [allocate, Fault.disturb_none, files_of_shape? hx] at undisturbed
    cases undisturbed
  | some x =>
    obtain ⟨revises, result⟩ := allocate_whole h.apart hx
    rw [undisturbed] at result
    cases hnext : x.next? with
    | none =>
      rw [hnext] at result
      cases result
    | some n =>
      rw [hnext] at result revises
      obtain rfl := Except.ok.inj result
      obtain ⟨free, hle, least⟩ := Shape.next?_least hnext
      obtain ⟨count, -⟩ := isLive_of_shape hx p
      have live (k : PageNo) := (isLive_of_shape hx k).2
      have now : (c.allocate none f).1.shape? f = some (x.take p) :=
        (revises.shape? f).trans (if_pos rfl)
      refine ⟨(live p).trans free, count ▸ hle, fun k hk => (live k).trans (least k hk), ?_, ?_⟩
      · rw [revises.page?, if_pos rfl, if_pos rfl, h.blank hx]
      · rw [(isLive_of_shape now p).2, Shape.live_take hle]

end Catalog

end SecondChance
