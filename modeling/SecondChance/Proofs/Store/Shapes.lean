import SecondChance.Proofs.Store.Liveness
import SecondChance.Proofs.Store.Pages

/-!
What a file goes by when it is asked for pages.

The number that a file hands out next is the lowest one that is free, and the page contains then
what is left in its slot. All that counts there is which slots are free, what is in these, and how
far the file may grow: the *shape* of a file. Reading and writing leave shapes alone, and what they
come to depends only on whether the file has the page. So the shape of a file and its pages are all
that its calls ever show of it, be it in memory or on disk.
-/

namespace SecondChance

/-- What a file goes by when it hands out numbers. -/
structure Shape where
  /-- The number of slots that the file may not exceed, if there is one. -/
  limit : Option Nat
  /-- For every slot, whether its page is live. -/
  live : List Bool
  /-- What a page contains if its number is handed out now. -/
  blank : PageNo → Page

namespace Shape

/-- The number that is handed out next, unless the file is full. -/
def next? (x : Shape) : Option PageNo :=
  (x.live.findIdx? (· == false)).or
    (if x.limit.any (· ≤ x.live.length) then none else some x.live.length)

/-- What remains to be handed out once a number has been. -/
def take (x : Shape) (n : PageNo) : Shape where
  limit := x.limit
  live := if n < x.live.length then x.live.set n true else x.live ++ [true]
  blank m := if n = m then .zero else x.blank m

def free (x : Shape) (n : PageNo) : Shape := { x with live := x.live.set n false }

end Shape

/-- The answer to a call about a page: the file refuses it unless it has the page. -/
def StoreError.unlessMissing {α : Type} (name : String) (n : PageNo) (x : Option α) :
    Except StoreError α :=
  x.elim (.error (.pageNotFound name n)) .ok

theorem set_live_self {live : List Bool} {n : PageNo} {b : Bool}
    (h : ∀ x, live[n]? = some x → x = b) : live.set n b = live := by
  refine List.ext_getElem? fun k => ?_
  rw [List.getElem?_set]
  split
  · next hk =>
    subst hk
    split
    · next hn => rw [List.getElem?_eq_getElem hn, h _ (List.getElem?_eq_getElem hn)]
    · next hn => rw [List.getElem?_eq_none (Nat.le_of_not_lt hn)]
  · rfl

/-! ### Stores in memory -/

namespace MemoryStore

variable (m : MemoryStore) (name : String) (n : PageNo) (p : Page)

def shape : Shape := ⟨m.limit, m.slots.toList.map Option.isSome, fun _ => .zero⟩

theorem live_shape {x : Bool} (h : m.shape.live[n]? = some x) : x = (m.page? n).isSome := by
  have hslot : m.slots[n]?.map Option.isSome = some x := by
    rw [← h, shape, List.getElem?_map, Array.getElem?_toList]
  obtain ⟨q, hq, rfl⟩ := Option.map_eq_some_iff.1 hslot
  rw [page?, hq]
  rfl

theorem read_eq : (m.read name n (.page p)).1.shape = m.shape ∧
    (m.read name n (.page p)).2 = StoreError.unlessMissing name n (m.page? n) ∧
    (m.read name n (.page p)).1.page? = m.page? := by
  refine ⟨?_, ?_, (read_cases rfl).1⟩ <;> simp only [read, Buffer.check_page] <;>
    cases m.page? n <;> rfl

theorem write_eq : (m.write name n (.page p)).1.shape = m.shape ∧
    (m.write name n (.page p)).2 =
      StoreError.unlessMissing name n ((m.page? n).map fun _ => ()) ∧
    ∀ k, (m.write name n (.page p)).1.page? k =
      if n = k then (m.page? k).map fun _ => p else m.page? k := by
  simp only [write, Buffer.check_page]
  cases hq : m.page? n with
  | none =>
    refine ⟨rfl, rfl, fun k => ?_⟩
    show m.page? k = _
    split
    · next hk => rw [← hk, hq, Option.map_none]
    · rfl
  | some q =>
    refine ⟨?_, rfl, fun k => (page?_setSlot (lt_size_of_page? hq) _ _ k).trans ?_⟩
    · have taken : m.shape.live.set n true = m.shape.live :=
        set_live_self fun x hx => by rw [m.live_shape n hx, hq, Option.isSome_some]
      simpa [shape, List.map_set] using taken
    · split
      · next hk => rw [← hk, hq, Option.map_some]
      · rfl

theorem delete_eq : (m.delete name n).1.shape = m.shape.free n ∧
    (m.delete name n).2 = StoreError.unlessMissing name n ((m.page? n).map fun _ => ()) ∧
    ∀ k, (m.delete name n).1.page? k = if n = k then none else m.page? k := by
  simp only [delete]
  cases hq : m.page? n with
  | none =>
    refine ⟨?_, rfl, fun k => ?_⟩
    · have freed : m.shape.live.set n false = m.shape.live :=
        set_live_self fun x hx => by rw [m.live_shape n hx, hq, Option.isSome_none]
      rw [Shape.free, freed]
    · show m.page? k = _
      split
      · next hk => rw [← hk, hq]
      · rfl
  | some q =>
    refine ⟨?_, rfl, page?_setSlot (lt_size_of_page? hq) _ _⟩
    simp [shape, Shape.free, List.map_set]

theorem next?_shape : m.shape.next? =
    m.firstFree?.or (if m.limit.any (· ≤ m.pageCount) then none else some m.pageCount) := by
  have first : m.shape.live.findIdx? (· == false) = m.firstFree? := by
    rw [shape, List.findIdx?_map, firstFree?]
    congr 1
    funext x
    cases x <;> rfl
  have count : m.shape.live.length = m.pageCount := by simp [shape, pageCount]
  rw [Shape.next?, first, count]
  rfl

theorem allocate_eq :
    m.allocate.1.shape = m.shape.next?.elim m.shape m.shape.take ∧
    m.allocate.2 = m.shape.next?.elim (.error .full) .ok ∧
    ∀ k, m.allocate.1.page? k =
      if m.shape.next? = some k then some (m.shape.blank k) else m.page? k := by
  rw [next?_shape, allocate]
  cases hf : m.firstFree? with
  | some n =>
    obtain ⟨hn, -, -⟩ := List.findIdx?_eq_some_iff_getElem.1 hf
    rw [Array.length_toList] at hn
    refine ⟨?_, rfl, fun k => ?_⟩
    · simp [shape, Shape.take, hn, List.map_set]
    · simp only [Option.some_or, Option.some.injEq]
      exact page?_setSlot hn _ _ k
  | none =>
    simp only [Option.none_or]
    split
    · exact ⟨rfl, rfl, fun k => rfl⟩
    · refine ⟨?_, rfl, fun k => ?_⟩
      · simp [shape, Shape.take, pageCount]
      · simp only [page?, Array.getElem?_push, pageCount, Option.some.injEq, eq_comm (a := k)]
        split <;> rfl

end MemoryStore

/-! ### Stores on disk -/

namespace DiskStore

variable (d : DiskStore) (bytes : Bytes) (name : String) (n : PageNo) (p : Page)

def blank : Page :=
  if d.live[n]? = some false then (Page.slice? bytes (n * pageSize)).getD .zero else .zero

def shape : Shape := ⟨none, d.live.toList, d.blank bytes⟩

theorem le_size_store : bytes.size ≤ (store bytes n p).size := by
  rw [size_store]
  exact Nat.le_max_left ..

variable {d bytes n} (hw : d.live.size * pageSize ≤ bytes.size)
include hw

theorem exists_pageIn (hl : d.isLive n = true) :
    ∃ q, Page.slice? bytes (n * pageSize) = some q ∧ d.pageIn bytes n = some q := by
  obtain ⟨q, hq⟩ := Option.isSome_iff_exists.1 (Page.isSome_slice?.2 (slot_le hl hw))
  exact ⟨q, hq, by rw [pageIn, if_pos hl, hq]⟩

theorem slice?_store {k : PageNo} (hk : n ≠ k) (hlt : k < d.live.size) :
    Page.slice? (store bytes n p) (k * pageSize) = Page.slice? bytes (k * pageSize) := by
  have whole := Nat.mul_le_mul_right pageSize (Nat.succ_le_of_lt hlt)
  rw [Nat.succ_mul] at whole
  exact Page.slice?_store_of_ne hk p (Nat.le_trans whole hw)

theorem blank_store {k : PageNo} (hk : n ≠ k) : d.blank (store bytes n p) k = d.blank bytes k := by
  unfold blank
  split
  · next hf =>
    obtain ⟨hlt, -⟩ := Array.getElem?_eq_some_iff.1 hf
    rw [slice?_store p hw hk hlt]
  · rfl

theorem pageIn_store {k : PageNo} (hk : n ≠ k) :
    d.pageIn (store bytes n p) k = d.pageIn bytes k := by
  unfold pageIn
  split
  · next hl => rw [slice?_store p hw hk (lt_size_of_isLive hl)]
  · rfl

theorem read_eq : d.read name bytes n (.page p) =
    StoreError.unlessMissing name n (d.pageIn bytes n) := by
  simp only [read, Buffer.check_page, checkLive]
  by_cases hl : d.isLive n = true
  · obtain ⟨q, hq, hp⟩ := exists_pageIn hw hl
    simp only [hl, if_true, hq, hp]
    rfl
  · simp only [hl, pageIn]
    rfl

omit hw in
theorem live_ne_free (hl : d.isLive n = true) : d.live[n]? ≠ some false := by
  intro hf
  rw [isLive, hf] at hl
  cases hl

theorem write_eq : d.live.size * pageSize ≤ (d.write name bytes n (.page p)).1.size ∧
    d.shape (d.write name bytes n (.page p)).1 = d.shape bytes ∧
    (d.write name bytes n (.page p)).2 =
      StoreError.unlessMissing name n ((d.pageIn bytes n).map fun _ => ()) ∧
    ∀ k, d.pageIn (d.write name bytes n (.page p)).1 k =
      if n = k then (d.pageIn bytes k).map fun _ => p else d.pageIn bytes k := by
  simp only [write, Buffer.check_page, checkLive]
  cases hl : d.isLive n with
  | true =>
    obtain ⟨q, -, hp⟩ := exists_pageIn hw hl
    have blank : d.blank (store bytes n p) = d.blank bytes := by
      funext k
      by_cases hk : n = k
      · subst hk
        rw [blank, blank, if_neg (live_ne_free hl), if_neg (live_ne_free hl)]
      · exact blank_store p hw hk
    simp only [if_true, hp]
    refine ⟨Nat.le_trans hw (le_size_store ..), by rw [shape, shape, blank], rfl, fun k => ?_⟩
    split
    · next hk => rw [← hk, hp, pageIn, if_pos hl, Page.slice?_store_self, Option.map_some]
    · next hk => exact pageIn_store p hw hk
  | false =>
    have missing : d.pageIn bytes n = none := by simp [pageIn, hl]
    simp only [Bool.false_eq_true, if_false, missing]
    refine ⟨hw, trivial, rfl, fun k => ?_⟩
    split
    · next hk => rw [← hk, missing, Option.map_none]
    · rfl

theorem delete_eq : (d.delete name bytes n).1.place = d.place ∧
    (d.delete name bytes n).1.live.size * pageSize ≤ (d.delete name bytes n).2.1.size ∧
    (d.delete name bytes n).1.shape (d.delete name bytes n).2.1 = (d.shape bytes).free n ∧
    (d.delete name bytes n).2.2 =
      StoreError.unlessMissing name n ((d.pageIn bytes n).map fun _ => ()) ∧
    ∀ k, (d.delete name bytes n).1.pageIn (d.delete name bytes n).2.1 k =
      if n = k then none else d.pageIn bytes k := by
  simp only [delete, checkLive]
  cases hl : d.isLive n with
  | true =>
    obtain ⟨q, -, hp⟩ := exists_pageIn hw hl
    have dead : (d.live.setIfInBounds n false)[n]? = some false := by
      rw [Array.getElem?_setIfInBounds, if_pos rfl, if_pos (lt_size_of_isLive hl)]
    have other {k : PageNo} (hk : n ≠ k) : (d.live.setIfInBounds n false)[k]? = d.live[k]? := by
      rw [Array.getElem?_setIfInBounds, if_neg hk]
    have blank : ({ d with live := d.live.setIfInBounds n false } : DiskStore).blank
        (store bytes n .zero) = d.blank bytes := by
      funext k
      by_cases hk : n = k
      · -- The slot has just been zeroed, and nothing else is expected of a live page.
        subst hk
        rw [blank, blank, if_pos dead, Page.slice?_store_self, if_neg (live_ne_free hl)]
        rfl
      · rw [blank, other hk]
        exact blank_store .zero hw hk
    simp only [if_true, hp]
    refine ⟨trivial, ?_, ?_, rfl, fun k => ?_⟩
    · rw [Array.size_setIfInBounds]
      exact Nat.le_trans hw (le_size_store ..)
    · simp [shape, Shape.free, blank]
    · split
      · next hk => simp [← hk, pageIn, isLive, dead]
      · next hk =>
        rw [pageIn, isLive, other hk]
        exact pageIn_store .zero hw hk
  | false =>
    have missing : d.pageIn bytes n = none := by simp [pageIn, hl]
    have freed : (d.shape bytes).live.set n false = (d.shape bytes).live := by
      refine set_live_self fun x hx => ?_
      rw [shape, Array.getElem?_toList] at hx
      rw [isLive, hx] at hl
      exact hl
    simp only [Bool.false_eq_true, if_false, missing]
    refine ⟨trivial, hw, by rw [Shape.free, freed], rfl, fun k => ?_⟩
    split
    · next hk => rw [← hk, missing]
    · rfl

omit hw in
theorem next?_shape : (d.shape bytes).next? = some (d.firstFree?.getD d.pageCount) := by
  rw [Shape.next?, shape, firstFree?, pageCount]
  cases d.live.toList.findIdx? (· == false) <;> simp

section Taken

variable {d' : DiskStore} {bytes' : Bytes}
  (live : ∀ k, d'.live[k]? = if n = k then some true else d.live[k]?)
include live

omit hw in
theorem blank_taken (same : ∀ k, n ≠ k → d.blank bytes' k = d.blank bytes k) :
    d'.blank bytes' = fun k => if n = k then .zero else d.blank bytes k := by
  funext k
  rw [blank, live]
  split
  · rfl
  · next hk => exact same k hk

omit hw in
theorem pageIn_taken (new : Page.slice? bytes' (n * pageSize) = some (d.blank bytes n))
    (same : ∀ k, n ≠ k → d.pageIn bytes' k = d.pageIn bytes k) (k : PageNo) :
    d'.pageIn bytes' k = if n = k then some (d.blank bytes k) else d.pageIn bytes k := by
  rw [pageIn, isLive, live]
  split
  · next hk => rw [← hk, Option.getD_some, if_pos rfl, new]
  · next hk => exact same k hk

end Taken

theorem allocate_eq : (d.allocate bytes).1.place = d.place ∧
    (d.allocate bytes).1.live.size * pageSize ≤ (d.allocate bytes).2.1.size ∧
    (d.allocate bytes).1.shape (d.allocate bytes).2.1 =
      (d.shape bytes).take (d.allocate bytes).2.2 ∧
    (d.shape bytes).next? = some (d.allocate bytes).2.2 ∧
    ∀ k, (d.allocate bytes).1.pageIn (d.allocate bytes).2.1 k =
      if (d.allocate bytes).2.2 = k then some ((d.shape bytes).blank k) else d.pageIn bytes k := by
  rw [next?_shape, allocate]
  cases hf : d.firstFree? with
  | some n =>
    obtain ⟨hlt, hfree, -⟩ := List.findIdx?_eq_some_iff_getElem.1 hf
    rw [Array.length_toList] at hlt
    rw [Array.getElem_toList, beq_iff_eq] at hfree
    have whole := Nat.mul_le_mul_right pageSize (Nat.succ_le_of_lt hlt)
    rw [Nat.succ_mul] at whole
    obtain ⟨q, hq⟩ := Option.isSome_iff_exists.1 (Page.isSome_slice?.2 (Nat.le_trans whole hw))
    have live (k : PageNo) : (d.live.setIfInBounds n true)[k]? =
        if n = k then some true else d.live[k]? := by
      rw [Array.getElem?_setIfInBounds]
      simp only [hlt, if_true]
    have slot : Page.slice? bytes (n * pageSize) = some (d.blank bytes n) := by
      simp [blank, hlt, hfree, hq]
    have left : ({ d with live := d.live.setIfInBounds n true } : DiskStore).blank bytes = _ :=
      blank_taken live fun _ _ => rfl
    refine ⟨rfl, ?_, ?_, rfl, pageIn_taken live slot fun _ _ => rfl⟩
    · rw [Array.size_setIfInBounds]
      exact hw
    · simp [shape, Shape.take, hlt, left]
  | none =>
    have live (k : PageNo) : (d.live.push true)[k]? =
        if d.pageCount = k then some true else d.live[k]? := by
      rw [Array.getElem?_push, pageCount]
      simp only [eq_comm]
    have slot : Page.slice? (store bytes d.pageCount .zero) (d.pageCount * pageSize) =
        some (d.blank bytes d.pageCount) := by
      have free : d.live[d.pageCount]? ≠ some false := by simp [pageCount]
      rw [Page.slice?_store_self, blank, if_neg free]
    have left : ({ d with live := d.live.push true } : DiskStore).blank
        (store bytes d.pageCount .zero) = _ :=
      blank_taken live fun _ hk => blank_store .zero hw hk
    have pages (k : PageNo) : ({ d with live := d.live.push true } : DiskStore).pageIn
        (store bytes d.pageCount .zero) k = _ :=
      pageIn_taken live slot (fun _ hk => pageIn_store .zero hw hk) k
    dsimp only
    refine ⟨rfl, ?_, ?_, rfl, pages⟩
    · rw [Array.size_push, size_store, Nat.succ_mul]
      exact Nat.le_max_right ..
    · simpa [shape, Shape.take, pageCount] using left

end DiskStore

/-! ### The calls of a catalogue -/

def Store.shape (drive : Drive) : Store → Shape
  | .memory m => m.shape
  | .disk d => d.shape (drive.contents d.place)

namespace Catalog

variable {c : Catalog} {f g : FileNo} {x : OpenFile}

def shape? (c : Catalog) (f : FileNo) : Option Shape := c.files[f]?.map (·.store.shape c.drive)

theorem shape?_eq (hf : c.files[f]? = some x) : c.shape? f = some (x.store.shape c.drive) := by
  rw [shape?, hf]
  rfl

theorem name_eq (hf : c.files[f]? = some x) : (c.labels f).name = x.name := by
  rw [labels, hf]

/-- One file has got another shape and other pages, and the others are as they were. -/
structure Revises (c : Catalog) (f : FileNo) (x : Shape) (pages : PageNo → Option Page)
    (c' : Catalog) : Prop where
  apart : c'.Apart
  shape? (g : FileNo) : c'.shape? g = if f = g then some x else c.shape? g
  page? (g : FileNo) (n : PageNo) : c'.page? g n = if f = g then pages n else c.page? g n

theorem revises_setMemory (h : c.Apart) (hf : c.files[f]? = some x) (m : MemoryStore) :
    c.Revises f m.shape m.page? (c.setStore f (.memory m)) where
  apart := h.setMemory f m
  shape? g := by
    rw [Catalog.shape?, files_setStore]
    split
    · next hg =>
      subst hg
      rw [hf]
      rfl
    · rfl
  page? g n := page?_setMemory hf m n

theorem revises_setDisk {d d' : DiskStore} {bytes : Bytes} (h : c.Apart)
    (hf : c.files[f]? = some x) (hd : x.store = .disk d) (hp : d'.place = d.place)
    (hw : d'.live.size * pageSize ≤ bytes.size) :
    c.Revises f (d'.shape bytes) (d'.pageIn bytes) (c.setDisk f d' bytes) where
  apart := h.setDisk hf hd hp hw
  shape? g := by
    rw [Catalog.shape?, setDisk, files_setStore]
    split
    · next hg =>
      subst hg
      show (c.files[f]?.map _).map _ = _
      rw [hf]
      show some (d'.shape ((c.drive.put d'.place bytes).contents d'.place)) = _
      rw [Drive.contents_put, if_pos rfl]
    · next hg =>
      show c.files[g]?.map _ = _
      rw [Catalog.shape?]
      cases hy : c.files[g]? with
      | none => rfl
      | some y =>
        show some (y.store.shape (c.drive.put d'.place bytes)) = some (y.store.shape c.drive)
        cases hs : y.store with
        | memory m => rfl
        | disk e =>
          have hne : d'.place ≠ e.place := fun he => hg (h.place_inj hf hd hy hs (hp.symm.trans he))
          rw [Store.shape, Store.shape, Drive.contents_put, if_neg hne]
  page? g n := page?_setDisk h hf hd hp n

theorem Revises.refl (h : c.Apart) {x : Shape} (hx : c.shape? f = some x) :
    c.Revises f x (c.page? f) c where
  apart := h
  shape? g := by
    split
    · next hg => rw [← hg, hx]
    · rfl
  page? g n := by
    split
    · next hg => rw [hg]
    · rfl

section Calls

variable {x : Shape} {n : PageNo} {p : Page} (ha : c.Apart) (hx : c.shape? f = some x)
include ha hx

theorem read_whole : c.Revises f x (c.page? f) (c.read none f n (.page p)).1 ∧
    (c.read none f n (.page p)).2 =
      StoreError.unlessMissing (c.labels f).name n (c.page? f n) := by
  obtain ⟨⟨id, name, store⟩, hf, rfl⟩ := Option.map_eq_some_iff.1 hx
  rw [name_eq hf, funext (page?_eq hf)]
  simp only [read, Fault.disturb_none, Fault.map_delivered_none, hf]
  cases store with
  | memory m =>
    obtain ⟨shape, result, pages⟩ := m.read_eq name n p
    have revises := revises_setMemory ha hf (m.read name n (.page p)).1
    rw [shape, pages] at revises
    exact ⟨revises, result⟩
  | disk d =>
    have same := Revises.refl ha hx
    rw [funext (page?_eq hf)] at same
    exact ⟨same, DiskStore.read_eq name p (ha.whole hf rfl)⟩

theorem write_whole : c.Revises f x
      (fun k => if n = k then (c.page? f k).map fun _ => p else c.page? f k)
      (c.write none f n (.page p)).1 ∧
    (c.write none f n (.page p)).2 =
      StoreError.unlessMissing (c.labels f).name n ((c.page? f n).map fun _ => ()) := by
  obtain ⟨⟨id, name, store⟩, hf, rfl⟩ := Option.map_eq_some_iff.1 hx
  simp only [name_eq hf, page?_eq hf, write, Fault.disturb_none, hf]
  cases store with
  | memory m =>
    obtain ⟨shape, result, pages⟩ := m.write_eq name n p
    have revises := revises_setMemory ha hf (m.write name n (.page p)).1
    rw [shape, funext pages] at revises
    exact ⟨revises, result⟩
  | disk d =>
    obtain ⟨whole, shape, result, pages⟩ := DiskStore.write_eq name (n := n) p (ha.whole hf rfl)
    have revises := revises_setDisk ha hf rfl rfl whole
    rw [shape, funext pages, setDisk_self hf rfl] at revises
    exact ⟨revises, result⟩

theorem delete_whole : c.Revises f (x.free n)
      (fun k => if n = k then none else c.page? f k) (c.delete none f n).1 ∧
    (c.delete none f n).2 =
      StoreError.unlessMissing (c.labels f).name n ((c.page? f n).map fun _ => ()) := by
  obtain ⟨⟨id, name, store⟩, hf, rfl⟩ := Option.map_eq_some_iff.1 hx
  simp only [name_eq hf, page?_eq hf, delete, Fault.disturb_none, hf]
  cases store with
  | memory m =>
    obtain ⟨shape, result, pages⟩ := m.delete_eq name n
    have revises := revises_setMemory ha hf (m.delete name n).1
    rw [shape, funext pages] at revises
    exact ⟨revises, result⟩
  | disk d =>
    obtain ⟨place, whole, shape, result, pages⟩ :=
      DiskStore.delete_eq name (n := n) (ha.whole hf rfl)
    have revises := revises_setDisk ha hf rfl place whole
    rw [shape, funext pages] at revises
    exact ⟨revises, result⟩

theorem allocate_whole : c.Revises f (x.next?.elim x x.take)
      (fun k => if x.next? = some k then some (x.blank k) else c.page? f k)
      (c.allocate none f).1 ∧
    (c.allocate none f).2 = x.next?.elim (.error .full) .ok := by
  obtain ⟨⟨id, name, store⟩, hf, rfl⟩ := Option.map_eq_some_iff.1 hx
  simp only [page?_eq hf, allocate, Fault.disturb_none, hf]
  cases store with
  | memory m =>
    obtain ⟨shape, result, pages⟩ := m.allocate_eq
    have revises := revises_setMemory ha hf m.allocate.1
    rw [shape, funext pages] at revises
    exact ⟨revises, result⟩
  | disk d =>
    obtain ⟨place, whole, shape, next, pages⟩ := DiskStore.allocate_eq (ha.whole hf rfl)
    have revises := revises_setDisk ha hf rfl place whole
    rw [shape, funext pages] at revises
    simp only [Store.shape, next, Option.elim_some, Option.some.injEq]
    exact ⟨revises, trivial⟩

end Calls

theorem isLive_of_shape {x : Shape} (hx : c.shape? f = some x) (n : PageNo) :
    c.pageCount f = x.live.length ∧ c.isLive f n = x.live[n]?.getD false := by
  obtain ⟨⟨id, name, store⟩, hf, rfl⟩ := Option.map_eq_some_iff.1 hx
  rw [isLive_eq hf]
  simp only [pageCount, hf]
  cases store with
  | memory m =>
    refine ⟨by simp [Store.shape, MemoryStore.shape, Store.pageCount, MemoryStore.pageCount], ?_⟩
    simp only [Store.isLive, MemoryStore.isLive, MemoryStore.page?, Store.shape, MemoryStore.shape,
      List.getElem?_map, Array.getElem?_toList]
    cases m.slots[n]? <;> simp
  | disk d => exact ⟨rfl, by simp [Store.isLive, DiskStore.isLive, Store.shape, DiskStore.shape]⟩

end Catalog

end SecondChance
