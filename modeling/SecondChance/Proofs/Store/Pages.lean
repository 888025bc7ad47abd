import SecondChance.Proofs.Store.Calls

/-!
The pages that files hold, and what calls do to them.

A page of a file in memory is in its slot, and a page of a file on disk is where its number says, if
the number is in use. No call that succeeds or fails touches any page but the one it is about.
Reading leaves everything as it is, and allocating can only give content to a page that had none.

Files on disk keep to this as long as they are *apart*: no two of them lie in the same place, and
none has been cut short behind our back.
-/

namespace SecondChance

namespace Page

theorem slice?_eq_some {a : Bytes} {off : Nat} {p : Page} :
    slice? a off = some p ↔ off + pageSize ≤ a.size ∧ ∀ i, i < pageSize → a[off + i]? = p[i]? := by
  unfold slice?
  constructor
  · intro h
    split at h
    · next hs =>
      obtain rfl := Option.some.inj h
      refine ⟨hs, fun i hi => ?_⟩
      rw [Vector.getElem?_mk, Array.getElem?_extract, if_pos (by omega)]
    · cases h
  · rintro ⟨hs, hp⟩
    rw [dif_pos hs]
    refine congrArg some (Vector.ext fun i hi => ?_)
    have hpi := hp i hi
    rw [Array.getElem?_eq_getElem (by omega), Vector.getElem?_eq_getElem hi] at hpi
    simpa using Option.some.inj hpi

theorem pageSize_pos : 0 < pageSize := by decide

theorem size_ne_zero (p : Page) : p.toArray.size ≠ 0 := by
  rw [p.size_toArray]
  exact Nat.ne_of_gt pageSize_pos

theorem slice?_store_self (bytes : Bytes) (n : Nat) (p : Page) :
    slice? (DiskStore.store bytes n p) (n * pageSize) = some p := by
  have hsize : p.toArray.size = pageSize := p.size_toArray
  rw [slice?_eq_some, DiskStore.store, Bytes.size_overwrite p.size_ne_zero, hsize]
  refine ⟨Nat.le_max_right .., fun i hi => ?_⟩
  rw [Bytes.getElem?_overwrite p.size_ne_zero, hsize, if_pos ⟨by omega, by omega⟩, Nat.add_sub_cancel_left]
  exact Vector.getElem?_toArray

/-- Two different slots do not overlap. -/
theorem slots_apart {n m : Nat} (h : n ≠ m) :
    n * pageSize + pageSize ≤ m * pageSize ∨ m * pageSize + pageSize ≤ n * pageSize := by
  rcases Nat.lt_or_gt_of_ne h with h | h
  · have := Nat.mul_le_mul_right pageSize (Nat.succ_le_of_lt h)
    rw [Nat.succ_mul] at this
    exact .inl this
  · have := Nat.mul_le_mul_right pageSize (Nat.succ_le_of_lt h)
    rw [Nat.succ_mul] at this
    exact .inr this

theorem slice?_store_of_ne {bytes : Bytes} {n m : Nat} (h : n ≠ m) (p : Page)
    (hm : m * pageSize + pageSize ≤ bytes.size) :
    slice? (DiskStore.store bytes n p) (m * pageSize) = slice? bytes (m * pageSize) := by
  have hsize : p.toArray.size = pageSize := p.size_toArray
  have hoff := slots_apart h
  ext1 q
  rw [slice?_eq_some, slice?_eq_some, DiskStore.store, Bytes.size_overwrite p.size_ne_zero]
  have hbytes (i : Nat) (hi : i < pageSize) :
      (bytes.overwrite (n * pageSize) p.toArray)[m * pageSize + i]? =
        bytes[m * pageSize + i]? := by
    rw [Bytes.getElem?_overwrite p.size_ne_zero, hsize, if_neg, if_neg]
    · omega
    · omega
  constructor
  · rintro ⟨-, hq⟩
    exact ⟨hm, fun i hi => (hbytes i hi).symm.trans (hq i hi)⟩
  · rintro ⟨-, hq⟩
    exact ⟨Nat.le_trans hm (Nat.le_max_left ..), fun i hi => (hbytes i hi).trans (hq i hi)⟩

end Page

/-! ### Stores in memory -/

namespace MemoryStore

variable {m m' : MemoryStore} {name : String} {n : PageNo}

theorem page?_setSlot (hn : n < m.slots.size) (p : Option Page) (st : Stats) (k : PageNo) :
    ({ m with slots := m.slots.setIfInBounds n p, stats := st } : MemoryStore).page? k =
      if n = k then p else m.page? k := by
  rw [page?, Array.getElem?_setIfInBounds]
  split
  · next hk =>
    subst hk
    cases p <;> rfl
  · rfl

theorem lt_size_of_page? {p : Page} (h : m.page? n = some p) : n < m.slots.size := by
  rcases Nat.lt_or_ge n m.slots.size with hn | hn
  · exact hn
  · rw [page?, Array.getElem?_eq_none hn] at h
    cases h

theorem read_cases {p : Page} {r : Except StoreError Page}
    (h : m.read name n (.page p) = (m', r)) :
    m'.page? = m.page? ∧ ∀ q, r = .ok q → m.page? n = some q := by
  simp only [read, Buffer.check_page] at h
  split at h
  · cases ‹Except.ok p = Except.error _›
  · obtain ⟨rfl, rfl⟩ := Prod.mk.inj h
    refine ⟨rfl, fun q hq => ?_⟩
    cases hq
  · next q hq =>
    obtain ⟨rfl, rfl⟩ := Prod.mk.inj h
    refine ⟨rfl, fun q' hq' => ?_⟩
    rw [hq, Except.ok.inj hq']

theorem write_cases {p : Page} {r : Except StoreError Unit}
    (h : m.write name n (.page p) = (m', r)) :
    (m' = m ∧ ∃ e, r = .error e) ∨
      (r = .ok () ∧ ∀ k, m'.page? k = if n = k then some p else m.page? k) := by
  simp only [write, Buffer.check_page] at h
  split at h
  · cases ‹Except.ok p = Except.error _›
  · obtain ⟨rfl, rfl⟩ := Prod.mk.inj h
    exact .inl ⟨rfl, _, rfl⟩
  · next q hb hq =>
    obtain rfl := Except.ok.inj hb
    obtain ⟨rfl, rfl⟩ := Prod.mk.inj h
    exact .inr ⟨rfl, page?_setSlot (lt_size_of_page? hq) _ _⟩

theorem allocate_cases {r : Except StoreError PageNo} (h : m.allocate = (m', r)) (k : PageNo) :
    m'.page? k = m.page? k ∨ (r = .ok k ∧ m.page? k = none) := by
  simp only [allocate] at h
  split at h
  · next n hn =>
    obtain ⟨rfl, rfl⟩ := Prod.mk.inj h
    obtain ⟨hlt, hnone, -⟩ := List.findIdx?_eq_some_iff_getElem.1 hn
    rw [Array.length_toList] at hlt
    rw [page?_setSlot hlt]
    split
    · next hk =>
      subst hk
      refine .inr ⟨rfl, ?_⟩
      rw [Array.getElem_toList, Option.isNone_iff_eq_none] at hnone
      rw [page?, Array.getElem?_eq_getElem hlt, hnone]
      rfl
    · exact .inl rfl
  · split at h
    · obtain ⟨rfl, -⟩ := Prod.mk.inj h
      exact .inl rfl
    · obtain ⟨rfl, rfl⟩ := Prod.mk.inj h
      rw [page?, page?, Array.getElem?_push]
      split
      · next hk =>
        subst hk
        rw [Array.getElem?_eq_none (Nat.le_refl _)]
        exact .inr ⟨rfl, rfl⟩
      · exact .inl rfl

end MemoryStore

/-! ### Stores on disk -/

namespace DiskStore

variable {d d' : DiskStore} {name : String} {bytes : Bytes} {n : PageNo}

theorem lt_size_of_isLive (h : d.isLive n = true) : n < d.live.size := by
  rcases Nat.lt_or_ge n d.live.size with hn | hn
  · exact hn
  · rw [isLive, Array.getElem?_eq_none hn] at h
    cases h

theorem slot_le (h : d.isLive n = true) (hw : d.live.size * pageSize ≤ bytes.size) :
    n * pageSize + pageSize ≤ bytes.size := by
  have := Nat.mul_le_mul_right pageSize (Nat.succ_le_of_lt (lt_size_of_isLive h))
  rw [Nat.succ_mul] at this
  exact Nat.le_trans this hw

/-- The page of a store that has the given bytes. -/
def pageIn (d : DiskStore) (bytes : Bytes) (n : PageNo) : Option Page :=
  if d.isLive n then Page.slice? bytes (n * pageSize) else none

theorem read_ok {p q : Page} (h : d.read name bytes n (.page p) = .ok q) :
    d.pageIn bytes n = some q := by
  simp only [read, Buffer.check_page, checkLive] at h
  rw [pageIn]
  by_cases hl : d.isLive n = true
  · rw [if_pos hl] at h ⊢
    simp only at h
    split at h
    · next hs => rw [hs, Except.ok.inj h]
    · cases h
  · rw [if_neg hl] at h
    cases h

theorem size_store (bytes : Bytes) (n : PageNo) (p : Page) :
    (store bytes n p).size = max bytes.size (n * pageSize + pageSize) := by
  rw [store, Bytes.size_overwrite p.size_ne_zero, p.size_toArray]

theorem write_cases {p : Page} {bytes' : Bytes} {r : Except StoreError Unit}
    (hw : d.live.size * pageSize ≤ bytes.size)
    (h : d.write name bytes n (.page p) = (bytes', r)) :
    d.live.size * pageSize ≤ bytes'.size ∧
      ((bytes' = bytes ∧ ∃ e, r = .error e) ∨
        (r = .ok () ∧ ∀ k, d.pageIn bytes' k = if n = k then some p else d.pageIn bytes k)) := by
  simp only [write, Buffer.check_page, checkLive] at h
  by_cases hl : d.isLive n = true
  · rw [if_pos hl] at h
    obtain ⟨rfl, rfl⟩ := Prod.mk.inj h
    refine ⟨?_, .inr ⟨rfl, fun k => ?_⟩⟩
    · rw [size_store]
      exact Nat.le_trans hw (Nat.le_max_left ..)
    · rw [pageIn, pageIn]
      by_cases hk : n = k
      · subst hk
        rw [if_pos hl, if_pos rfl, Page.slice?_store_self]
      · rw [if_neg hk]
        split
        · next hlk => exact Page.slice?_store_of_ne hk p (slot_le hlk hw)
        · rfl
  · rw [if_neg hl] at h
    obtain ⟨rfl, rfl⟩ := Prod.mk.inj h
    exact ⟨hw, .inl ⟨rfl, _, rfl⟩⟩

theorem allocate_cases {bytes' : Bytes} (hw : d.live.size * pageSize ≤ bytes.size)
    (h : d.allocate bytes = (d', bytes', n)) :
    d'.place = d.place ∧ d'.live.size * pageSize ≤ bytes'.size ∧
      ∀ k, d'.pageIn bytes' k = d.pageIn bytes k ∨ (n = k ∧ d.pageIn bytes k = none) := by
  unfold allocate at h
  split at h
  · next n' hn =>
    obtain ⟨rfl, he⟩ := Prod.mk.inj h
    obtain ⟨rfl, rfl⟩ := Prod.mk.inj he
    obtain ⟨hlt, hfree, -⟩ := List.findIdx?_eq_some_iff_getElem.1 hn
    rw [Array.length_toList] at hlt
    refine ⟨rfl, ?_, fun k => ?_⟩
    · rw [Array.size_setIfInBounds]
      exact hw
    · rw [pageIn, pageIn, isLive, isLive, Array.getElem?_setIfInBounds]
      by_cases hk : n' = k
      · subst hk
        rw [Array.getElem_toList, beq_iff_eq] at hfree
        rw [Array.getElem?_eq_getElem hlt, hfree]
        exact .inr ⟨rfl, rfl⟩
      · rw [if_neg hk]
        exact .inl rfl
  · next hn =>
    obtain ⟨rfl, he⟩ := Prod.mk.inj h
    obtain ⟨rfl, rfl⟩ := Prod.mk.inj he
    refine ⟨rfl, ?_, fun k => ?_⟩
    · rw [Array.size_push, size_store, Nat.succ_mul]
      exact Nat.le_max_right ..
    · rw [pageIn, pageIn, isLive, isLive, Array.getElem?_push]
      by_cases hk : k = d.live.size
      · subst hk
        rw [Array.getElem?_eq_none (Nat.le_refl _)]
        exact .inr ⟨rfl, rfl⟩
      · rw [if_neg hk]
        refine .inl ?_
        split
        · next hl => exact Page.slice?_store_of_ne (Ne.symm hk) _ (slot_le hl hw)
        · rfl

end DiskStore

def Store.page? (drive : Drive) (n : PageNo) : Store → Option Page
  | .memory m => m.page? n
  | .disk d => d.pageIn (drive.contents d.place) n

namespace Catalog

def page? (c : Catalog) (f : FileNo) (n : PageNo) : Option Page :=
  c.files[f]?.bind fun x => x.store.page? c.drive n

/-- No two files share a place on the drive, and each of them is there in full. -/
structure Apart (c : Catalog) : Prop where
  place_inj {f g : FileNo} {x y : OpenFile} {d e : DiskStore} (hf : c.files[f]? = some x)
    (hd : x.store = .disk d) (hg : c.files[g]? = some y) (he : y.store = .disk e)
    (hp : d.place = e.place) : f = g
  whole {f : FileNo} {x : OpenFile} {d : DiskStore} (hf : c.files[f]? = some x)
    (hd : x.store = .disk d) : d.live.size * pageSize ≤ (c.drive.contents d.place).size

theorem apart_of_memory {c : Catalog}
    (h : ∀ (f : FileNo) (x : OpenFile), c.files[f]? = some x → ∃ m, x.store = .memory m) :
    c.Apart where
  place_inj {f _ x _ _ _} hf hd _ _ _ := by
    obtain ⟨m, hm⟩ := h f x hf
    exact nomatch hd.symm.trans hm
  whole {f x _} hf hd := by
    obtain ⟨m, hm⟩ := h f x hf
    exact nomatch hd.symm.trans hm

variable {c : Catalog} {f g : FileNo} {x : OpenFile}

theorem page?_eq (hf : c.files[f]? = some x) (n : PageNo) :
    c.page? f n = x.store.page? c.drive n := by
  rw [page?, hf]
  rfl

theorem files_setStore (c : Catalog) (f g : FileNo) (s : Store) :
    (c.setStore f s).files[g]? =
      if f = g then c.files[g]?.map (fun x => { x with store := s }) else c.files[g]? :=
  Array.getElem?_modify

theorem setStore_self (hf : c.files[f]? = some x) : c.setStore f x.store = c := by
  have h : (c.setStore f x.store).files = c.files := by
    refine Array.ext_getElem? fun g => ?_
    rw [files_setStore]
    split
    · next hg =>
      subst hg
      rw [hf]
      rfl
    · rfl
  obtain ⟨files, drive, nextId⟩ := c
  exact congrArg (fun a => Catalog.mk a drive nextId) h

theorem page?_setMemory (hf : c.files[f]? = some x) (m : MemoryStore) (n : PageNo) :
    (c.setStore f (.memory m)).page? g n = if f = g then m.page? n else c.page? g n := by
  rw [page?, files_setStore]
  split
  · next hg =>
    subst hg
    rw [hf]
    rfl
  · rfl

theorem Apart.setMemory (h : c.Apart) (f : FileNo) (m : MemoryStore) :
    (c.setStore f (.memory m)).Apart := by
  -- Files on disk are others than `f`, and they are as they were.
  have old {g : FileNo} {y : OpenFile} {d : DiskStore}
      (hg : (c.setStore f (.memory m)).files[g]? = some y) (hd : y.store = .disk d) :
      c.files[g]? = some y := by
    rw [files_setStore] at hg
    split at hg
    · obtain ⟨z, -, rfl⟩ := Option.map_eq_some_iff.1 hg
      cases hd
    · exact hg
  constructor
  case place_inj =>
    intro g g' y y' d d' hg hd hg' hd' hp
    exact h.place_inj (old hg hd) hd (old hg' hd') hd' hp
  case whole =>
    intro g y d hg hd
    exact h.whole (old hg hd) hd

def setDisk (c : Catalog) (f : FileNo) (d : DiskStore) (bytes : Bytes) : Catalog :=
  { c with drive := c.drive.put d.place bytes }.setStore f (.disk d)

section Disk

variable {d d' : DiskStore} {bytes : Bytes} (h : c.Apart) (hf : c.files[f]? = some x)
  (hd : x.store = .disk d) (hp : d'.place = d.place)
include h hf hd hp

theorem page?_setDisk (n : PageNo) : (c.setDisk f d' bytes).page? g n =
    if f = g then d'.pageIn bytes n else c.page? g n := by
  rw [page?, setDisk, files_setStore]
  split
  · next hg =>
    subst hg
    show (c.files[f]?.map _).bind _ = _
    rw [hf]
    show d'.pageIn ((c.drive.put d'.place bytes).contents d'.place) n = _
    rw [Drive.contents_put, if_pos rfl]
  · next hg =>
    show c.files[g]?.bind _ = _
    rw [page?]
    cases hy : c.files[g]? with
    | none => rfl
    | some y =>
      show y.store.page? (c.drive.put d'.place bytes) n = y.store.page? c.drive n
      cases hs : y.store with
      | memory m => rfl
      | disk e =>
        have hne : d'.place ≠ e.place := fun he => hg (h.place_inj hf hd hy hs (hp.symm.trans he))
        rw [Store.page?, Store.page?, Drive.contents_put, if_neg hne]

theorem Apart.setDisk (hw : d'.live.size * pageSize ≤ bytes.size) :
    (c.setDisk f d' bytes).Apart := by
  -- Every file on disk is either `f` with what it has got or one of the others.
  have cases {g : FileNo} {y : OpenFile} {e : DiskStore}
      (hg : (c.setDisk f d' bytes).files[g]? = some y) (he : y.store = .disk e) :
      (f = g ∧ e = d') ∨ (f ≠ g ∧ c.files[g]? = some y ∧ d.place ≠ e.place) := by
    rw [Catalog.setDisk, files_setStore] at hg
    split at hg
    · next hfg =>
      obtain ⟨z, -, rfl⟩ := Option.map_eq_some_iff.1 hg
      exact .inl ⟨hfg, (Store.disk.inj he).symm⟩
    · next hfg => exact .inr ⟨hfg, hg, fun hpl => hfg (h.place_inj hf hd hg he hpl)⟩
  constructor
  case place_inj =>
    intro g g' y y' e e' hg he hg' he' hpl
    rcases cases hg he with ⟨rfl, rfl⟩ | ⟨hfg, hgy, hne⟩
    · rcases cases hg' he' with ⟨hfg', -⟩ | ⟨-, -, hne'⟩
      · exact hfg'
      · exact (hne' (hp.symm.trans hpl)).elim
    · rcases cases hg' he' with ⟨rfl, rfl⟩ | ⟨-, hgy', -⟩
      · exact (hne (hp.symm.trans hpl.symm)).elim
      · exact h.place_inj hgy he hgy' he' hpl
  case whole =>
    intro g y e hg he
    show e.live.size * pageSize ≤ ((c.drive.put d'.place bytes).contents e.place).size
    rw [Drive.contents_put]
    rcases cases hg he with ⟨rfl, rfl⟩ | ⟨-, hgy, hne⟩
    · rw [if_pos rfl]
      exact hw
    · rw [if_neg (hp ▸ hne)]
      exact h.whole hgy he

end Disk

/-! ### Calls -/

theorem setDisk_self {d : DiskStore} (hf : c.files[f]? = some x) (hd : x.store = .disk d)
    (bytes : Bytes) : c.setDisk f d bytes = { c with drive := c.drive.put d.place bytes } := by
  have hs := setStore_self (c := { c with drive := c.drive.put d.place bytes }) hf
  rw [hd] at hs
  exact hs

variable {c' : Catalog} {fault : Option Fault} {n : PageNo} {p : Page}

theorem read_eq (c : Catalog) (fault : Option Fault) (f : FileNo) (n : PageNo) (b : Buffer) :
    c.read fault f n b =
      ((Fault.disturb fault (c.labels f).name n (fun c => c.read none f n b) c).1,
        (Fault.disturb fault (c.labels f).name n (fun c => c.read none f n b) c).2.map
          (Fault.delivered fault b)) := by
  simp only [read, Fault.disturb_none, Fault.map_delivered_none]

theorem read_none_cases {r : Except StoreError Page} (ha : c.Apart)
    (h : c.read none f n (.page p) = (c', r)) :
    c'.Apart ∧ c'.page? = c.page? ∧ ∀ q, r = .ok q → c.page? f n = some q := by
  simp only [read, Fault.disturb_none, Fault.map_delivered_none] at h
  split at h
  · obtain ⟨rfl, rfl⟩ := Prod.mk.inj h
    refine ⟨ha, rfl, fun q hq => ?_⟩
    cases hq
  · next id name m hf =>
    generalize hm : m.read name n (.page p) = q at h
    obtain ⟨m', r'⟩ := q
    obtain ⟨rfl, rfl⟩ := Prod.mk.inj h
    obtain ⟨hp, hr⟩ := MemoryStore.read_cases hm
    refine ⟨ha.setMemory f _, ?_, fun q hq => ?_⟩
    · ext1 g
      ext1 k
      rw [page?_setMemory hf, hp]
      split
      · next hg =>
        subst hg
        rw [page?_eq hf]
        rfl
      · rfl
    · rw [page?_eq hf]
      exact hr q hq
  · next id name d hf =>
    obtain ⟨rfl, rfl⟩ := Prod.mk.inj h
    refine ⟨ha, rfl, fun q hq => ?_⟩
    rw [page?_eq hf]
    exact DiskStore.read_ok hq

theorem read_cases {r : Except StoreError Page} (ha : c.Apart)
    (h : c.read fault f n (.page p) = (c', r)) :
    c'.Apart ∧ c'.page? = c.page? ∧
      ∀ q, r = .ok q → Fault.cuts fault = false → c.page? f n = some q := by
  rw [read_eq] at h
  generalize hd : Fault.disturb fault _ n _ c = q at h
  obtain ⟨c₁, r₁⟩ := q
  obtain ⟨rfl, rfl⟩ := Prod.mk.inj h
  obtain ⟨ha', hp, hr⟩ := read_none_cases ha (rfl : c.read none f n (.page p) = (_, _))
  rcases Fault.disturb_cases hd with ⟨rfl, e, rfl⟩ | ⟨rfl, hres⟩
  · refine ⟨ha, rfl, fun q hq => ?_⟩
    cases hq
  · refine ⟨ha', hp, fun q hq hcut => ?_⟩
    rcases hres with rfl | ⟨e, rfl⟩
    · have hid : Fault.delivered fault (.page p) = id :=
        funext (Fault.delivered_of_whole hcut _)
      rw [hid, Except.map_id] at hq
      exact hr q hq
    · cases hq

theorem write_none_cases {r : Except StoreError Unit} (ha : c.Apart)
    (h : c.write none f n (.page p) = (c', r)) :
    c'.Apart ∧ ((c'.page? = c.page? ∧ ∃ e, r = .error e) ∨
      ∀ g m, c'.page? g m = if f = g ∧ n = m then some p else c.page? g m) := by
  simp only [write, Fault.disturb_none] at h
  split at h
  · obtain ⟨rfl, rfl⟩ := Prod.mk.inj h
    exact ⟨ha, .inl ⟨rfl, _, rfl⟩⟩
  · next id name m hf =>
    generalize hm : m.write name n (.page p) = q at h
    obtain ⟨m', r'⟩ := q
    obtain ⟨rfl, rfl⟩ := Prod.mk.inj h
    refine ⟨ha.setMemory f _, ?_⟩
    rcases MemoryStore.write_cases hm with ⟨rfl, he⟩ | ⟨-, hp⟩
    · exact .inl ⟨congrArg page? (setStore_self hf), he⟩
    · refine .inr fun g k => ?_
      rw [page?_setMemory hf, hp]
      by_cases hg : f = g
      · subst hg
        simp only [if_true, true_and, page?_eq hf]
        rfl
      · simp only [hg, false_and, if_false]
  · next id name d hf =>
    generalize hd : d.write name (c.drive.contents d.place) n (.page p) = q at h
    obtain ⟨bytes, r'⟩ := q
    obtain ⟨rfl, rfl⟩ := Prod.mk.inj h
    rw [← setDisk_self hf rfl]
    obtain ⟨hw, hb⟩ := DiskStore.write_cases (ha.whole hf rfl) hd
    refine ⟨ha.setDisk hf rfl rfl hw, ?_⟩
    rcases hb with ⟨rfl, he⟩ | ⟨-, hb⟩
    · refine .inl ⟨?_, he⟩
      ext1 g
      ext1 k
      rw [page?_setDisk ha hf rfl rfl]
      split
      · next hg =>
        subst hg
        rw [page?_eq hf]
        rfl
      · rfl
    · refine .inr fun g k => ?_
      rw [page?_setDisk ha hf rfl rfl, hb]
      by_cases hg : f = g
      · subst hg
        simp only [if_true, true_and, page?_eq hf]
        rfl
      · simp only [hg, false_and, if_false]

theorem write_cases {r : Except StoreError Unit} (ha : c.Apart)
    (h : c.write fault f n (.page p) = (c', r)) :
    c'.Apart ∧ ((c'.page? = c.page? ∧ ∃ e, r = .error e) ∨
      ∀ g m, c'.page? g m = if f = g ∧ n = m then some p else c.page? g m) := by
  have hd : Fault.disturb fault (c.labels f).name n (fun c => c.write none f n (.page p)) c =
      (c', r) := h
  obtain ⟨ha', hp⟩ := write_none_cases ha (rfl : c.write none f n (.page p) = (_, _))
  rcases Fault.disturb_cases hd with ⟨rfl, he⟩ | ⟨rfl, hr⟩
  · exact ⟨ha, .inl ⟨rfl, he⟩⟩
  · refine ⟨ha', ?_⟩
    rcases hp with ⟨hp, he⟩ | hp
    · refine .inl ⟨hp, ?_⟩
      rcases hr with rfl | he'
      · exact he
      · exact he'
    · exact .inr hp

theorem allocate_none_cases {r : Except StoreError PageNo} (ha : c.Apart)
    (h : c.allocate none f = (c', r)) :
    c'.Apart ∧ ∀ g m, c'.page? g m = c.page? g m ∨ (f = g ∧ r = .ok m ∧ c.page? g m = none) := by
  simp only [allocate, Fault.disturb_none] at h
  split at h
  · obtain ⟨rfl, rfl⟩ := Prod.mk.inj h
    exact ⟨ha, fun _ _ => .inl rfl⟩
  · next m hf =>
    generalize hm : m.allocate = q at h
    obtain ⟨m', r'⟩ := q
    obtain ⟨rfl, rfl⟩ := Prod.mk.inj h
    refine ⟨ha.setMemory f _, fun g k => ?_⟩
    rw [page?_setMemory hf]
    by_cases hg : f = g
    · subst hg
      rw [if_pos rfl, page?_eq hf]
      exact (MemoryStore.allocate_cases hm k).imp_right fun ⟨hr, hn⟩ => ⟨rfl, hr, hn⟩
    · rw [if_neg hg]
      exact .inl rfl
  · next d hf =>
    generalize hd : d.allocate (c.drive.contents d.place) = q at h
    obtain ⟨d', bytes, k'⟩ := q
    obtain ⟨rfl, rfl⟩ := Prod.mk.inj h
    obtain ⟨hpl, hw, hb⟩ := DiskStore.allocate_cases (ha.whole hf rfl) hd
    refine ⟨ha.setDisk hf rfl hpl hw, fun g k => ?_⟩
    show (c.setDisk f d' bytes).page? g k = _ ∨ _
    rw [page?_setDisk ha hf rfl hpl]
    by_cases hg : f = g
    · subst hg
      rw [if_pos rfl, page?_eq hf]
      exact (hb k).imp_right fun ⟨hk, hn⟩ => ⟨rfl, congrArg Except.ok hk, hn⟩
    · rw [if_neg hg]
      exact .inl rfl

theorem allocate_cases {r : Except StoreError PageNo} (ha : c.Apart)
    (h : c.allocate fault f = (c', r)) :
    c'.Apart ∧ ∀ g m, c'.page? g m = c.page? g m ∨
      (f = g ∧ (c.allocate none f).2 = .ok m ∧ c.page? g m = none) := by
  have hd : Fault.disturb fault (c.labels f).name 0 (fun c => c.allocate none f) c = (c', r) := h
  obtain ⟨ha', hp⟩ := allocate_none_cases ha (rfl : c.allocate none f = (_, _))
  rcases Fault.disturb_cases hd with ⟨rfl, -⟩ | ⟨rfl, -⟩
  · exact ⟨ha, fun _ _ => .inl rfl⟩
  · exact ⟨ha', hp⟩

theorem sync_fst (c : Catalog) (fault : Option Fault) (f : FileNo) : (c.sync fault f).1 = c := by
  rcases Fault.disturb_cases (rfl : c.sync fault f = (_, _)) with ⟨h, -⟩ | ⟨h, -⟩
  · exact h
  · exact h

end Catalog

end SecondChance
