import SecondChance.Pool.Lending

/-!
What every change of a ledger does to every frame.

A frame has a generation and perhaps an occupant, and these two are all that later arguments ask
about. `setOccupant` and `vacate` leave all generations as they are, `install` begins a new one in
the frame it fills, and none of them touches any other frame.

The reference bits and the hand are of no interest except to the sweep. `Cooled` relates two ledgers
that differ in nothing else, so it is what may happen to a ledger while the hand passes.
-/

namespace SecondChance

namespace Occupant

def unreferenced (o : Occupant) : Occupant := { o with referenced := false }

theorem isEvictable_iff {o : Occupant} :
    o.isEvictable = true ↔ o.pins = 0 ∧ o.io = .idle ∧ o.referenced = false := by
  simp [isEvictable, standing_eq_available, and_assoc]

def returned (o : Occupant) (dirty : Bool) : Occupant :=
  { o with pins := o.pins - 1, dirty := o.dirty || dirty }

theorem unpin?_of_pinned {o : Occupant} (h : o.pins ≠ 0) (dirty : Bool) :
    o.unpin? dirty = some (o.returned dirty) := if_neg h

theorem unpin?_of_unpinned {o : Occupant} (h : o.pins = 0) (dirty : Bool) :
    o.unpin? dirty = none := if_pos h

end Occupant

namespace Frame

theorem occupantAt_eq_some {f : Frame} {g : Nat} {o : Occupant} :
    f.occupantAt g = some o ↔ f.generation = g ∧ f.occupant = some o := by
  unfold occupantAt
  split <;> simp_all

theorem occupantAt_eq_none {f : Frame} {g : Nat} :
    f.occupantAt g = none ↔ (f.generation = g → f.occupant = none) := by
  unfold occupantAt
  split <;> simp_all

end Frame

namespace Ledger

/-- The number of pages that have been put into a frame so far. -/
def generation (l : Ledger) (i : FrameNo) : Nat := (l.frame i).generation

theorem occupantAt_frame {l : Ledger} {i : FrameNo} {g : Nat} {o : Occupant} :
    (l.frame i).occupantAt g = some o ↔ l.generation i = g ∧ l.occupant? i = some o :=
  Frame.occupantAt_eq_some

theorem occupant?_new (n : Nat) (i : FrameNo) : (Ledger.new n).occupant? i = none := by
  rw [occupant?, frame, Ledger.new, Array.getElem?_replicate]
  split <;> rfl

/-! ### Occupants and generations of a changed ledger -/

theorem frame_setFrame_of_lt {l : Ledger} {i : FrameNo} (hi : i < l.size) (f : Frame)
    (j : FrameNo) : (l.setFrame i f).frame j = if i = j then f else l.frame j := by
  rw [frame_setFrame]
  by_cases h : i = j
  · rw [if_pos ⟨h, hi⟩, if_pos h]
  · rw [if_neg fun hc => h hc.1, if_neg h]

@[simp] theorem generation_setOccupant (l : Ledger) (i j : FrameNo) (o : Occupant) :
    (l.setOccupant i o).generation j = l.generation j := by
  unfold generation setOccupant
  rw [frame_setFrame]
  split
  · next h => rw [← h.1]
  · rfl

theorem occupant?_setOccupant {l : Ledger} {i : FrameNo} (hi : i < l.size) (o : Occupant)
    (j : FrameNo) : (l.setOccupant i o).occupant? j = if i = j then some o else l.occupant? j := by
  unfold occupant? setOccupant
  rw [frame_setFrame_of_lt hi]
  split <;> rfl

@[simp] theorem generation_vacate (l : Ledger) (i j : FrameNo) (k : PageKey) :
    (l.vacate i k).generation j = l.generation j := by
  show ((l.setFrame i (l.frame i).clear).frame j).generation = (l.frame j).generation
  rw [frame_setFrame]
  split
  · next h => rw [← h.1]; rfl
  · rfl

theorem occupant?_vacate {l : Ledger} {i : FrameNo} (hi : i < l.size) (k : PageKey) (j : FrameNo) :
    (l.vacate i k).occupant? j = if i = j then none else l.occupant? j := by
  show ((l.setFrame i (l.frame i).clear).frame j).occupant = _
  rw [frame_setFrame_of_lt hi]
  split <;> rfl

theorem generation_install {l : Ledger} {i : FrameNo} (hi : i < l.size) (k : PageKey)
    (file : FileNo) (page : PageNo) (j : FrameNo) :
    (l.install i k file page).generation j = l.generation j + if i = j then 1 else 0 := by
  show ((l.setFrame i ((l.frame i).install file page)).frame j).generation = _
  rw [frame_setFrame_of_lt hi]
  split
  · next h => subst h; rfl
  · rfl

theorem occupant?_install {l : Ledger} {i : FrameNo} (hi : i < l.size) (k : PageKey)
    (file : FileNo) (page : PageNo) (j : FrameNo) :
    (l.install i k file page).occupant? j =
      if i = j then some (.arriving file page) else l.occupant? j := by
  show ((l.setFrame i ((l.frame i).install file page)).frame j).occupant = _
  rw [frame_setFrame_of_lt hi]
  split <;> rfl

/-! ### Ledgers that the hand has passed over -/

/-- `l'` is `l` with the hand somewhere else and some reference bits cleared. -/
structure Cooled (l l' : Ledger) : Prop where
  table : l'.table = l.table
  size : l'.size = l.size
  hand : l.hand < l.size → l'.hand < l'.size
  generation : ∀ j, l'.generation j = l.generation j
  occupant : ∀ j, (l'.occupant? j).map (·.unreferenced) = (l.occupant? j).map (·.unreferenced)

namespace Cooled

theorem refl (l : Ledger) : l.Cooled l := ⟨rfl, rfl, id, fun _ => rfl, fun _ => rfl⟩

theorem trans {l m r : Ledger} (h : l.Cooled m) (h' : m.Cooled r) : l.Cooled r where
  table := h'.table.trans h.table
  size := h'.size.trans h.size
  hand hl := h'.hand (h.hand hl)
  generation j := (h'.generation j).trans (h.generation j)
  occupant j := (h'.occupant j).trans (h.occupant j)

variable {l l' : Ledger} (h : l.Cooled l')
include h

theorem occupant?_eq_none {j : FrameNo} : l'.occupant? j = none ↔ l.occupant? j = none := by
  have ho := h.occupant j
  cases hl : l.occupant? j <;> cases hl' : l'.occupant? j <;> simp_all

theorem before {j : FrameNo} {o : Occupant} (ho : l'.occupant? j = some o) :
    ∃ r, l.occupant? j = some { o with referenced := r } := by
  have hj := h.occupant j
  rw [ho] at hj
  cases hl : l.occupant? j with
  | none => rw [hl] at hj; cases hj
  | some p =>
    rw [hl] at hj
    refine ⟨p.referenced, congrArg some ?_⟩
    have hp : o.unreferenced = p.unreferenced := Option.some.inj hj
    simp only [Occupant.unreferenced, Occupant.mk.injEq] at hp
    cases p
    simp_all

theorem after {j : FrameNo} {o : Occupant} (ho : l.occupant? j = some o) :
    ∃ r, l'.occupant? j = some { o with referenced := r } := by
  have hj := h.occupant j
  rw [ho] at hj
  cases hl : l'.occupant? j with
  | none => rw [hl] at hj; cases hj
  | some p =>
    rw [hl] at hj
    refine ⟨p.referenced, congrArg some ?_⟩
    have hp : p.unreferenced = o.unreferenced := Option.some.inj hj
    simp only [Occupant.unreferenced, Occupant.mk.injEq] at hp
    cases p
    simp_all

end Cooled

theorem cooled_advance (l : Ledger) : l.Cooled l.advance where
  table := rfl
  size := rfl
  hand hl := Nat.mod_lt _ (Nat.zero_lt_of_lt hl)
  generation _ := rfl
  occupant _ := rfl

theorem cooled_setOccupant {l : Ledger} {i : FrameNo} {o : Occupant} (ho : l.occupant? i = some o) :
    l.Cooled (l.setOccupant i { o with referenced := false }) where
  table := rfl
  size := size_setOccupant ..
  hand hl := by simpa using hl
  generation j := generation_setOccupant ..
  occupant j := by
    rw [occupant?_setOccupant (lt_size_of_occupant? ho)]
    split
    · next h => subst h; rw [ho]; rfl
    · rfl

/-- A ledger in which pages may have left their frames that nobody had, that were not being moved
and that were clean. This is all that the search for a frame does before it comes to a result. -/
inductive Eased (labels : Labels) (l : Ledger) : Ledger → Prop
  | cooled {l' : Ledger} (h : l.Cooled l') : Eased labels l l'
  | vacated {l' : Ledger} {i : FrameNo} {o : Occupant} (h : Eased labels l l')
      (ho : l'.occupant? i = some o) (hs : o.standing = .available) (hd : o.dirty = false) :
      Eased labels l (l'.vacate i (o.key labels))

theorem Eased.refl (labels : Labels) (l : Ledger) : l.Eased labels l := .cooled (.refl l)

theorem Eased.size {labels : Labels} {l l' : Ledger} (h : l.Eased labels l') :
    l'.size = l.size := by
  induction h with
  | cooled h => exact h.size
  | vacated _ _ _ _ ih => rw [size_vacate, ih]

theorem Eased.before {labels : Labels} {l l' : Ledger} (h : l.Eased labels l') {i : FrameNo}
    {o : Occupant} (ho : l'.occupant? i = some o) :
    ∃ r, l.occupant? i = some { o with referenced := r } := by
  induction h with
  | cooled h => exact h.before ho
  | vacated _ hp _ _ ih =>
    rw [occupant?_vacate (lt_size_of_occupant? hp)] at ho
    split at ho
    · cases ho
    · exact ih ho

theorem Eased.after {labels : Labels} {l l' : Ledger} (h : l.Eased labels l') {i : FrameNo}
    {o : Occupant} (ho : l.occupant? i = some o) :
    l'.generation i = l.generation i ∧
      ((∃ r, l'.occupant? i = some { o with referenced := r }) ∨
        (o.standing = .available ∧ o.dirty = false)) := by
  induction h with
  | cooled h => exact ⟨h.generation i, .inl (h.after ho)⟩
  | @vacated m j p _ hp hs hd ih =>
    obtain ⟨hg, ⟨r, hr⟩ | hleft⟩ := ih
    · refine ⟨(generation_vacate ..).trans hg, ?_⟩
      by_cases hj : j = i
      · subst hj
        rw [hr] at hp
        obtain rfl := Option.some.inj hp
        exact .inr ⟨hs, hd⟩
      · refine .inl ⟨r, ?_⟩
        rw [occupant?_vacate (lt_size_of_occupant? hp), if_neg hj, hr]
    · exact ⟨(generation_vacate ..).trans hg, .inr hleft⟩

theorem Eased.find?_eq_none {labels : Labels} {l l' : Ledger} (h : l.Eased labels l')
    {k : PageKey} (hk : l.table.find? k = none) : l'.table.find? k = none := by
  induction h with
  | cooled h => rw [h.table, hk]
  | vacated _ _ _ _ ih => rw [table_vacate, Table.find?_erase, ih, ite_self]

end Ledger

end SecondChance
