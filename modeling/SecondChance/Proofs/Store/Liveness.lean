import SecondChance.Proofs.Store.Pages

/-!
Which pages a file has.

A page is live from being allocated until it is deleted. A file delivers live pages only, it hands
out numbers that are not live, and nothing but deleting a page ends its life: neither other calls
nor calls about other pages. This holds of files on disk without regard to what is in them, because
which pages are live is not kept there.
-/

namespace SecondChance

/-- What holds before a call and after the undisturbed call holds after the call. -/
theorem Fault.disturb_fst {σ α : Type} {fault : Option Fault} {name : String} {page : PageNo}
    {call : σ → σ × Except StoreError α} {s : σ} {P : σ → Prop} (h : P s) (h' : P (call s).1) :
    P (Fault.disturb fault name page call s).1 := by
  obtain ⟨s', r, hd⟩ : ∃ s' r, Fault.disturb fault name page call s = (s', r) := ⟨_, _, rfl⟩
  rw [hd]
  rcases disturb_cases hd with ⟨hs, -⟩ | ⟨hs, -⟩ <;> rwa [hs]

theorem Fault.disturb_ok {σ α : Type} {fault : Option Fault} {name : String} {page : PageNo}
    {call : σ → σ × Except StoreError α} {s : σ} {a : α}
    (h : (Fault.disturb fault name page call s).2 = .ok a) : (call s).2 = .ok a := by
  obtain ⟨s', r, hd⟩ : ∃ s' r, Fault.disturb fault name page call s = (s', r) := ⟨_, _, rfl⟩
  rw [hd] at h
  rcases disturb_cases hd with ⟨-, e, he⟩ | ⟨-, he | ⟨e, he⟩⟩
  · cases he.symm.trans h
  · exact he.symm.trans h
  · cases he.symm.trans h

namespace MemoryStore

variable {m m' : MemoryStore} {name : String} {n k : PageNo} {p : Page}

def isLive (m : MemoryStore) (n : PageNo) : Bool := (m.page? n).isSome

theorem isLive_of_page? (h : m.page? k = some p) : m.isLive k = true := by
  rw [isLive, h]
  rfl

theorem isLive_read : (m.read name n (.page p)).1.isLive k = m.isLive k := by
  obtain ⟨m', r, hm⟩ : ∃ m' r, m.read name n (.page p) = (m', r) := ⟨_, _, rfl⟩
  rw [hm, isLive, (read_cases hm).1, isLive]

theorem isLive_write (h : m.isLive k = true) : (m.write name n (.page p)).1.isLive k = true := by
  obtain ⟨m', r, hm⟩ : ∃ m' r, m.write name n (.page p) = (m', r) := ⟨_, _, rfl⟩
  rw [hm]
  rcases write_cases hm with ⟨rfl, -⟩ | ⟨-, hp⟩
  · exact h
  · rw [isLive, hp]
    split
    · rfl
    · exact h

theorem isLive_allocate (h : m.isLive k = true) : m.allocate.1.isLive k = true := by
  obtain ⟨m', r, hm⟩ : ∃ m' r, m.allocate = (m', r) := ⟨_, _, rfl⟩
  rw [hm]
  rcases allocate_cases hm k with hp | ⟨-, hn⟩
  · rwa [isLive, hp]
  · simp [isLive, hn] at h

theorem not_isLive_of_allocate (h : m.allocate.2 = .ok k) : m.isLive k = false := by
  unfold allocate at h
  simp only at h
  split at h
  · next n hn =>
    obtain rfl := Except.ok.inj h
    obtain ⟨hlt, hnone, -⟩ := List.findIdx?_eq_some_iff_getElem.1 hn
    rw [Array.length_toList] at hlt
    rw [Array.getElem_toList, Option.isNone_iff_eq_none] at hnone
    simp [isLive, page?, Array.getElem?_eq_getElem hlt, hnone]
  · split at h
    · cases h
    · obtain rfl := Except.ok.inj h
      simp [isLive, page?, pageCount]

theorem isLive_delete (hk : n ≠ k) : (m.delete name n).1.isLive k = m.isLive k := by
  unfold delete
  split
  · rfl
  · next q hq => rw [isLive, page?_setSlot (lt_size_of_page? hq), if_neg hk, isLive]

end MemoryStore

namespace DiskStore

variable {d : DiskStore} {name : String} {bytes : Bytes} {n k : PageNo} {p q : Page}

theorem isLive_of_read (h : d.read name bytes n (.page p) = .ok q) : d.isLive n = true := by
  have hq := read_ok h
  unfold pageIn at hq
  split at hq
  · assumption
  · cases hq

theorem isLive_allocate (h : d.isLive k = true) : (d.allocate bytes).1.isLive k = true := by
  have hlt := lt_size_of_isLive h
  unfold allocate
  split
  · rw [isLive, Array.getElem?_setIfInBounds]
    split
    · simp [*]
    · exact h
  · rw [isLive, Array.getElem?_push, if_neg (Nat.ne_of_lt hlt)]
    exact h

theorem not_isLive_of_allocate (h : (d.allocate bytes).2.2 = k) : d.isLive k = false := by
  unfold allocate at h
  split at h
  · next n hn =>
    subst h
    obtain ⟨hlt, hfree, -⟩ := List.findIdx?_eq_some_iff_getElem.1 hn
    rw [Array.length_toList] at hlt
    rw [Array.getElem_toList, beq_iff_eq] at hfree
    simp [isLive, Array.getElem?_eq_getElem hlt, hfree]
  · subst h
    simp [isLive, pageCount]

theorem isLive_delete (hk : n ≠ k) : (d.delete name bytes n).1.isLive k = d.isLive k := by
  unfold delete
  split
  · rfl
  · rw [isLive, Array.getElem?_setIfInBounds, if_neg hk, isLive]

end DiskStore

def Store.isLive : Store → PageNo → Bool
  | .memory m, n => m.isLive n
  | .disk d, n => d.isLive n

namespace Catalog

variable {c c' : Catalog} {fault : Option Fault} {f g : FileNo} {n k : PageNo} {p q : Page}
  {x : OpenFile}

def isLive (c : Catalog) (f : FileNo) (n : PageNo) : Bool := c.files[f]?.any (·.store.isLive n)

theorem isLive_eq (hf : c.files[f]? = some x) (n : PageNo) : c.isLive f n = x.store.isLive n := by
  rw [isLive, hf, Option.any_some]

theorem isLive_setStore (hf : c.files[f]? = some x) (st : Store) (g : FileNo) (k : PageNo) :
    (c.setStore f st).isLive g k = if f = g then st.isLive k else c.isLive g k := by
  rw [isLive, files_setStore]
  split
  · next hg =>
    subst hg
    rw [hf]
    rfl
  · rfl

theorem isLive_of_setStore (hf : c.files[f]? = some x) {st : Store}
    (h : x.store.isLive k = true → st.isLive k = true) (hl : c.isLive g k = true) :
    (c.setStore f st).isLive g k = true := by
  rw [isLive_setStore hf]
  split
  · next hg =>
    subst hg
    rw [isLive_eq hf] at hl
    exact h hl
  · exact hl

theorem isLive_read (hl : c.isLive g k = true) :
    (c.read fault f n (.page p)).1.isLive g k = true := by
  rw [read_eq]
  refine Fault.disturb_fst (P := fun c : Catalog => c.isLive g k = true) hl ?_
  simp only [read, Fault.disturb_none]
  split
  · exact hl
  · next name m hf => exact isLive_of_setStore hf (fun h => MemoryStore.isLive_read.trans h) hl
  · exact hl

theorem isLive_of_read (h : c.read fault f n (.page p) = (c', .ok q)) : c.isLive f n = true := by
  rw [read_eq] at h
  obtain ⟨-, hr⟩ := Prod.mk.inj h
  obtain ⟨q', hr, -⟩ : ∃ q', (Fault.disturb fault (c.labels f).name n
      (fun c => c.read none f n (.page p)) c).2 = .ok q' ∧ Fault.delivered fault (.page p) q' = q := by
    cases hd : (Fault.disturb fault (c.labels f).name n (fun c => c.read none f n (.page p)) c).2 with
    | error e => rw [hd] at hr; cases hr
    | ok q' =>
      rw [hd] at hr
      exact ⟨q', rfl, Except.ok.inj hr⟩
  have undisturbed := Fault.disturb_ok hr
  simp only [read, Fault.disturb_none, Fault.map_delivered_none] at undisturbed
  split at undisturbed
  · cases undisturbed
  · next name m hf =>
    rw [isLive_eq hf]
    exact MemoryStore.isLive_of_page? ((MemoryStore.read_cases rfl).2 q' undisturbed)
  · next name d hf =>
    rw [isLive_eq hf]
    exact DiskStore.isLive_of_read undisturbed

theorem isLive_write (hl : c.isLive g k = true) :
    (c.write fault f n (.page p)).1.isLive g k = true := by
  refine Fault.disturb_fst (P := fun c : Catalog => c.isLive g k = true) hl ?_
  split
  · exact hl
  · next name m hf => exact isLive_of_setStore hf (fun h => MemoryStore.isLive_write h) hl
  · exact hl

theorem isLive_allocate (hl : c.isLive g k = true) : (c.allocate fault f).1.isLive g k = true := by
  refine Fault.disturb_fst (P := fun c : Catalog => c.isLive g k = true) hl ?_
  split
  · exact hl
  · next m hf => exact isLive_of_setStore hf (fun h => MemoryStore.isLive_allocate h) hl
  · next d hf => exact isLive_of_setStore hf (fun h => DiskStore.isLive_allocate h) hl

theorem not_isLive_of_allocate (h : (c.allocate fault f).2 = .ok k) : c.isLive f k = false := by
  have undisturbed := Fault.disturb_ok h
  simp only at undisturbed
  split at undisturbed
  · cases undisturbed
  · next m hf =>
    rw [isLive_eq hf]
    exact MemoryStore.not_isLive_of_allocate undisturbed
  · next d hf =>
    rw [isLive_eq hf]
    exact DiskStore.not_isLive_of_allocate (Except.ok.inj undisturbed)

theorem isLive_delete (hne : ¬ (f = g ∧ n = k)) (hl : c.isLive g k = true) :
    (c.delete fault f n).1.isLive g k = true := by
  refine Fault.disturb_fst (P := fun c : Catalog => c.isLive g k = true) hl ?_
  have other {x : OpenFile} {st : Store} (hf : c.files[f]? = some x)
      (h : n ≠ k → st.isLive k = x.store.isLive k) {c₁ : Catalog} (hc : c₁.files = c.files) :
      (c₁.setStore f st).isLive g k = true := by
    by_cases hg : f = g
    · rw [isLive_setStore (hc ▸ hf), if_pos hg, h fun hk => hne ⟨hg, hk⟩, ← isLive_eq hf, hg]
      exact hl
    · rw [isLive_setStore (hc ▸ hf), if_neg hg, isLive, hc]
      exact hl
  split
  · exact hl
  · next name m hf =>
    refine other hf (fun hk => ?_) rfl
    exact MemoryStore.isLive_delete hk
  · next name d hf =>
    refine other hf (fun hk => ?_) rfl
    exact DiskStore.isLive_delete hk

end Catalog

end SecondChance
