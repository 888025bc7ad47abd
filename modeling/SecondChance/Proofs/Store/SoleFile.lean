import SecondChance.Proofs.Store.Twins

/-!
A single open file on disk, and what it is to comprise certain pages.

As long as no page is deleted, a file is told by the number of its pages and by their contents. A
page that is handed out then is a new one behind the last, and contains zeros. Where no other file
is open, no call can do anything but to that file.
-/

namespace SecondChance

def Shape.full (count : Nat) : Shape := ⟨none, List.replicate count true, fun _ => .zero⟩

theorem Shape.next?_full (count : Nat) : (full count).next? = some count := by
  simp [next?, full, List.findIdx?_replicate]

theorem Shape.take_full (count : Nat) : (full count).take count = full (count + 1) := by
  simp [take, full, List.replicate_succ']

namespace Catalog

variable {c e : Catalog} {f : FileNo} {n count : Nat} {pages : PageNo → Page}
  {path place : String} {m : MemoryStore}

/-- An open file has so many pages, no number is free, and page `n` contains `pages n`. -/
structure Comprises (c : Catalog) (f : FileNo) (count : Nat) (pages : PageNo → Page) : Prop where
  apart : c.Apart
  shape : c.shape? f = some (.full count)
  page? (n : PageNo) : c.page? f n = if n < count then some (pages n) else none

namespace Comprises

variable (h : c.Comprises f count pages)
include h

theorem isOpen : f < c.files.size := by
  obtain ⟨x, hx, -⟩ := Option.map_eq_some_iff.1 h.shape
  exact (Array.getElem?_eq_some_iff.1 hx).1

theorem pageCount_eq : c.pageCount f = count := by
  rw [(isLive_of_shape h.shape 0).1, Shape.full, List.length_replicate]

theorem page?_of_lt (hn : n < count) : c.page? f n = some (pages n) := by
  rw [h.page?, if_pos hn]

theorem read (hn : n < count) (p : Page) :
    (c.read none f n (.page p)).1.Comprises f count pages ∧
      (c.read none f n (.page p)).2 = .ok (pages n) := by
  obtain ⟨revises, result⟩ := read_whole (n := n) (p := p) h.apart h.shape
  refine ⟨⟨revises.apart, ?_, fun k => ?_⟩, ?_⟩
  · rw [revises.shape?, if_pos rfl]
  · rw [revises.page?, if_pos rfl, h.page?]
  · rw [result, h.page?_of_lt hn]
    rfl

theorem write (hn : n < count) (p : Page) :
    (c.write none f n (.page p)).1.Comprises f count (fun k => if k = n then p else pages k) ∧
      (c.write none f n (.page p)).2 = .ok () := by
  obtain ⟨revises, result⟩ := write_whole (n := n) (p := p) h.apart h.shape
  refine ⟨⟨revises.apart, ?_, fun k => ?_⟩, ?_⟩
  · rw [revises.shape?, if_pos rfl]
  · rw [revises.page?, if_pos rfl, h.page?]
    by_cases hk : n = k
    · subst hk
      rw [if_pos rfl, if_pos hn, if_pos hn, if_pos rfl]
      rfl
    · rw [if_neg hk, if_neg (Ne.symm hk)]
  · rw [result, h.page?_of_lt hn]
    rfl

theorem allocate (zeros : pages count = .zero) :
    (c.allocate none f).1.Comprises f (count + 1) pages ∧
      (c.allocate none f).2 = .ok count := by
  obtain ⟨revises, result⟩ := allocate_whole h.apart h.shape
  rw [Shape.next?_full, Option.elim_some] at revises result
  refine ⟨⟨revises.apart, ?_, fun k => ?_⟩, result⟩
  · rw [revises.shape?, if_pos rfl, Shape.take_full]
  · rw [revises.page?, if_pos rfl, h.page?]
    rcases Nat.lt_trichotomy k count with hk | rfl | hk
    · rw [if_neg (by simpa using Nat.ne_of_gt hk), if_pos hk, if_pos (Nat.lt_succ_of_lt hk)]
    · rw [if_pos rfl, if_pos (Nat.lt_succ_self k), zeros]
      rfl
    · rw [if_neg (by simpa using Nat.ne_of_lt hk), if_neg (Nat.lt_asymm hk),
        if_neg (Nat.not_lt_of_ge hk)]

end Comprises

/-! ### Files on disk -/

theorem OnDisk.page?_eq (h : c.OnDisk f path place m) (n : PageNo) : c.page? f n = m.page? n := by
  obtain ⟨i, d, bytes, hf, rfl, hb, depicts⟩ := h.store
  rw [Catalog.page?_eq hf]
  show d.pageIn (c.drive.contents d.place) n = m.page? n
  rw [Drive.contents, hb, Option.getD_some, DiskStore.pageIn, depicts.isLive_eq]
  cases hp : m.page? n with
  | none => rfl
  | some p => exact depicts.slice? hp

/-- A page of a file on disk lies where its number says, and there is nothing behind the last. -/
theorem OnDisk.contents (h : c.OnDisk f path place m) (hc : c.pageCount f = count)
    (hp : ∀ n < count, c.page? f n = some (pages n)) :
    (c.drive.contents place).size = count * pageSize ∧ ∀ n < count, ∀ i < pageSize,
      (c.drive.contents place)[n * pageSize + i]? = (pages n)[i]? := by
  obtain ⟨i, d, bytes, hf, rfl, hb, depicts⟩ := h.store
  rw [Drive.contents, hb, Option.getD_some]
  rw [h.pageCount_eq, MemoryStore.pageCount] at hc
  refine ⟨by rw [depicts.size, hc], fun n hn => ?_⟩
  have page := hp n hn
  rw [h.page?_eq] at page
  exact (Page.slice?_eq_some.1 (depicts.slice? page)).2

theorem OnDisk.comprises {bytes : Bytes} (h : c.OnDisk f path place (.holding bytes))
    (ha : c.Apart) (whole : bytes.size = count * pageSize) :
    c.Comprises f count bytes.page where
  apart := ha
  shape := by
    obtain ⟨i, d, bytes', hf, rfl, hb, depicts⟩ := h.store
    have live : d.live.toList = List.replicate count true := by
      rw [depicts.live, MemoryStore.slots_holding whole]
      exact List.ext_getElem (by simp) fun n _ _ => by simp
    rw [shape?_eq hf]
    simp only [Store.shape, DiskStore.shape, Shape.full, live]
    refine congrArg (fun blank => some (Shape.mk none _ blank)) (funext fun n => if_neg ?_)
    rw [← Array.getElem?_toList, live, List.getElem?_replicate]
    split <;> simp
  page? n := by
    rw [h.page?_eq, MemoryStore.page?, MemoryStore.slots_holding whole, Array.getElem?_map]
    by_cases hn : n < count
    · simp [hn]
    · simp [hn]

/-! ### The only file -/

theorem registry_call (c : Catalog) (f : FileNo) (x : StoreCall) :
    (c.call f x).1.registry = c.registry := by
  cases x with
  | read n buffer => exact registry_read c none f n buffer
  | write n buffer => exact registry_write c none f n buffer
  | allocate => exact registry_allocate c none f
  | delete n => exact registry_delete c none f n
  | count => rfl
  | sync => exact registry_sync c none f

theorem call_unopened (hf : c.files[f]? = none) (x : StoreCall) : (c.call f x).1 = c := by
  cases x with
  | read n buffer | write n buffer =>
    simp only [Catalog.call, Catalog.read, Catalog.write, Fault.disturb_none, hf, Prod.map, id_eq]
  | allocate => simp only [Catalog.call, Catalog.allocate, Fault.disturb_none, hf, Prod.map, id_eq]
  | delete n => simp only [Catalog.call, Catalog.delete, Fault.disturb_none, hf, Prod.map, id_eq]
  | count => rfl
  | sync => exact sync_fst c none f

/-- No other file is open, and this one is on disk. -/
structure Sole (c : Catalog) (path place : String) : Prop where
  size : c.files.size = 1
  store : ∃ m, c.OnDisk 0 path place m

theorem Sole.call (h : c.Sole path place) (f : FileNo) (x : StoreCall) :
    (c.call f x).1.Sole path place := by
  by_cases hf : f = 0
  · subst hf
    obtain ⟨m, onDisk⟩ := h.store
    exact ⟨(size_of_registry (c.registry_call 0 x)).trans h.size, _, (onDisk.call x).1⟩
  · have unopened : c.files[f]? = none :=
      Array.getElem?_eq_none (h.size ▸ Nat.one_le_iff_ne_zero.2 hf)
    rwa [call_unopened unopened]

theorem Sole.eq_zero (h : c.Sole path place) {x : OpenFile} (hf : c.files[f]? = some x) :
    f = 0 := by
  obtain ⟨hlt, -⟩ := Array.getElem?_eq_some_iff.1 hf
  exact Nat.lt_one_iff.1 (h.size ▸ hlt)

theorem Sole.distinct (h : c.Sole path place) : c.Distinct := by
  intro f g hf hg _
  rw [h.size, Nat.lt_one_iff] at hf hg
  rw [hf, hg]

theorem Sole.apart (h : c.Sole path place) : c.Apart where
  place_inj hf _ hg _ _ := (h.eq_zero hf).trans (h.eq_zero hg).symm
  whole {f x d} hf hd := by
    obtain rfl := h.eq_zero hf
    obtain ⟨m, -, i, d', bytes, hx, rfl, hb, depicts⟩ := h.store
    obtain rfl := Option.some.inj (hf.symm.trans hx)
    obtain rfl := Store.disk.inj hd
    refine Nat.le_of_eq ?_
    rw [Drive.contents, hb, Option.getD_some, depicts.size, depicts.live, Array.size_map]

theorem size_of_openDisk (opened : c.openDisk path = (e, .ok f)) :
    f = c.files.size ∧ e.files.size = c.files.size + 1 := by
  unfold openDisk at opened
  split at opened
  · cases opened
  · dsimp only at opened
    split at opened
    · cases opened
    · cases opened
      exact ⟨rfl, Array.size_push ..⟩

/-- A file of whole pages, or a missing one, is opened as the only one. -/
theorem exists_sole {drive : Drive} (resolved : drive.resolve path = .ok place)
    (whole : (drive.contents place).size = count * pageSize) :
    ∃ e, openDisk { Catalog.empty with drive := drive } path = (e, .ok 0) ∧ e.Sole path place ∧
      e.Comprises 0 count (drive.contents place).page := by
  obtain ⟨e, f, opened, onDisk, -⟩ :=
    exists_openDisk (c := { Catalog.empty with drive := drive }) resolved
      (by rw [whole, Nat.mul_mod_left])
  obtain ⟨rfl, size⟩ := size_of_openDisk opened
  have sole : e.Sole path place := ⟨size, _, onDisk⟩
  exact ⟨e, opened, sole, onDisk.comprises sole.apart whole⟩

end Catalog

end SecondChance
