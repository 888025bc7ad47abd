import SecondChance.Store.Catalog

/-!
What no call to a page file changes: how many files are open, and what they answer about themselves.

A disturbed call either does nothing and fails, or does what it would do undisturbed, after which it
may still report an error.
-/

namespace SecondChance

/-- A fault that makes a read succeed without delivering all of the page. -/
def Fault.cuts : Option Fault → Bool
  | some (.short _) => true
  | _ => false

theorem Fault.delivered_of_whole {fault : Option Fault} (h : Fault.cuts fault = false)
    (buffer : Buffer) (new : Page) : Fault.delivered fault buffer new = new := by
  unfold delivered
  split
  · cases h
  · rfl

theorem Fault.map_delivered_none (buffer : Buffer) (r : Except StoreError Page) :
    r.map (delivered none buffer) = r := by
  cases r <;> rfl

theorem Fault.disturb_cases {σ α : Type} {fault : Option Fault} {name : String} {page : PageNo}
    {call : σ → σ × Except StoreError α} {s s' : σ} {r : Except StoreError α}
    (h : Fault.disturb fault name page call s = (s', r)) :
    (s' = s ∧ ∃ e, r = .error e) ∨ (s' = (call s).1 ∧ (r = (call s).2 ∨ ∃ e, r = .error e)) := by
  unfold disturb at h
  split at h
  · exact .inr ⟨congrArg Prod.fst h.symm, .inl (congrArg Prod.snd h.symm)⟩
  · obtain ⟨rfl, rfl⟩ := Prod.mk.inj h
    exact .inl ⟨rfl, _, rfl⟩
  · obtain ⟨rfl, rfl⟩ := Prod.mk.inj h
    exact .inl ⟨rfl, _, rfl⟩
  · obtain ⟨rfl, rfl⟩ := Prod.mk.inj h
    exact .inl ⟨rfl, _, rfl⟩
  · obtain ⟨rfl, rfl⟩ := Prod.mk.inj h
    exact .inl ⟨rfl, _, rfl⟩
  · split at h
    · next hc =>
      obtain ⟨rfl, rfl⟩ := Prod.mk.inj h
      exact .inr ⟨by rw [hc], .inr ⟨_, rfl⟩⟩
    · exact .inr ⟨congrArg Prod.fst h.symm, .inl (congrArg Prod.snd h.symm)⟩
  · exact .inr ⟨congrArg Prod.fst h.symm, .inl (congrArg Prod.snd h.symm)⟩

theorem Fault.disturb_keeps {σ α β : Type} {fault : Option Fault} {name : String} {page : PageNo}
    {call : σ → σ × Except StoreError α} {s : σ} {view : σ → β}
    (h : view (call s).1 = view s) : view (Fault.disturb fault name page call s).1 = view s := by
  obtain ⟨s', r, hd⟩ : ∃ s' r, Fault.disturb fault name page call s = (s', r) := ⟨_, _, rfl⟩
  rw [hd]
  rcases disturb_cases hd with ⟨hs, -⟩ | ⟨hs, -⟩
  · rw [hs]
  · rw [hs]
    exact h

namespace Catalog

/-- The labels of a catalogue and the number of its files. -/
def registry (c : Catalog) : Labels × Nat := (c.labels, c.files.size)

theorem registry_setStore (c : Catalog) (f : FileNo) (s : Store) :
    (c.setStore f s).registry = c.registry := by
  refine Prod.ext (labels_setStore c f s) ?_
  show (c.files.modify f _).size = c.files.size
  exact Array.size_modify

theorem registry_drive (c : Catalog) (d : Drive) : ({ c with drive := d } : Catalog).registry =
    c.registry := rfl

variable (c : Catalog) (fault : Option Fault) (f : FileNo) (n : PageNo) (b : Buffer)

theorem registry_read : (c.read fault f n b).1.registry = c.registry := by
  simp only [read]
  refine Fault.disturb_keeps ?_
  split
  · rfl
  · exact registry_setStore ..
  · rfl

theorem registry_write : (c.write fault f n b).1.registry = c.registry := by
  refine Fault.disturb_keeps ?_
  split
  · rfl
  · exact registry_setStore ..
  · exact registry_drive ..

theorem registry_allocate : (c.allocate fault f).1.registry = c.registry := by
  refine Fault.disturb_keeps ?_
  split
  · rfl
  · exact registry_setStore ..
  · rw [registry_setStore, registry_drive]

theorem registry_delete : (c.delete fault f n).1.registry = c.registry := by
  refine Fault.disturb_keeps ?_
  split
  · rfl
  · exact registry_setStore ..
  · rw [registry_setStore, registry_drive]

theorem registry_sync : (c.sync fault f).1.registry = c.registry := Fault.disturb_keeps rfl

theorem labels_of_registry {c c' : Catalog} (h : c'.registry = c.registry) :
    c'.labels = c.labels := congrArg Prod.fst h

theorem size_of_registry {c c' : Catalog} (h : c'.registry = c.registry) :
    c'.files.size = c.files.size := congrArg Prod.snd h

/-- Every open file reports an identity of its own. -/
def Distinct (c : Catalog) : Prop :=
  ∀ f g, f < c.files.size → g < c.files.size → (c.labels f).id = (c.labels g).id → f = g

theorem Distinct.congr {c c' : Catalog} (h : c.Distinct) (hr : c'.registry = c.registry) :
    c'.Distinct := by
  unfold Distinct
  rw [size_of_registry hr, labels_of_registry hr]
  exact h

/-- Where files report identities of their own, pages with the same key are the same page of the
same file. -/
theorem Distinct.key_inj {c : Catalog} (h : c.Distinct) {f g : FileNo} {n m : PageNo}
    (hf : f < c.files.size) (hg : g < c.files.size) (hk : c.labels.key f n = c.labels.key g m) :
    f = g ∧ n = m :=
  ⟨h f g hf hg (congrArg PageKey.file hk), congrArg PageKey.page hk⟩

end Catalog

end SecondChance
