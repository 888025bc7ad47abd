import SecondChance.Proofs.Ledger.Decisions

/-!
Where the pins of a page come from.

Every pin belongs to somebody who can give it back, or to the load that has brought the page.
`claims` says how many there are of the first kind for a frame and a generation, and `lost` whether
a load has failed. A ledger is *accounted* for if all its pins are explained in this way, nobody has
a claim on a stay that is still to come, and claims on stays that are over are due to lost loads
only.
-/

namespace SecondChance

namespace Occupant

/-- The pin of the load that is bringing the page, if it is still under way. -/
def loads (o : Occupant) : Nat := if o.io = .busy .load then 1 else 0

theorem loads_eq_zero {o : Occupant} (h : o.io ≠ .busy .load) : o.loads = 0 := if_neg h

theorem loads_eq_one {o : Occupant} (h : o.io = .busy .load) : o.loads = 1 := if_pos h

end Occupant

namespace Ledger

theorem occupantAt_eq_none {l : Ledger} {i : FrameNo} {g : Nat} :
    (l.frame i).occupantAt g = none ↔ (l.generation i = g → l.occupant? i = none) :=
  Frame.occupantAt_eq_none

/-- A page has as many pins as there are claims on its stay, and one more while it is being loaded.
Nobody has a claim on a stay that has not begun, a stay that is over although there are claims on it
has lost its load, and a stay that has lost its load is over. -/
structure Accounted (l : Ledger) (claims : FrameNo → Nat → Nat) (lost : FrameNo → Nat → Prop) :
    Prop where
  pins {i : FrameNo} {o : Occupant} (ho : l.occupant? i = some o) :
    o.pins = claims i (l.generation i) + o.loads
  fresh {i : FrameNo} {g : Nat} (hg : l.generation i < g) : claims i g = 0
  gone {i : FrameNo} {g : Nat} (hc : claims i g ≠ 0) (ho : (l.frame i).occupantAt g = none) :
    lost i g
  lost_gone {i : FrameNo} {g : Nat} (hl : lost i g) :
    (l.frame i).occupantAt g = none ∧ g ≤ l.generation i

namespace Accounted

variable {l l' : Ledger} {claims claims' : FrameNo → Nat → Nat} {lost : FrameNo → Nat → Prop}

theorem new (n : Nat) : (Ledger.new n).Accounted (fun _ _ => 0) fun _ _ => False where
  pins {i o} ho := by
    rw [occupant?_new] at ho
    cases ho
  fresh _ := rfl
  gone hc := (hc rfl).elim
  lost_gone hl := hl.elim

theorem cooled (h : l.Accounted claims lost) (hc : l.Cooled l') : l'.Accounted claims lost where
  pins {i o} ho := by
    obtain ⟨r, hr⟩ := hc.before ho
    have hp := h.pins hr
    rw [hc.generation]
    exact hp
  fresh hg := h.fresh (by rwa [hc.generation] at hg)
  gone {i g} hp ho := by
    refine h.gone hp ?_
    rw [occupantAt_eq_none] at ho ⊢
    rwa [hc.generation, hc.occupant?_eq_none] at ho
  lost_gone {i g} hl := by
    obtain ⟨ho, hg⟩ := h.lost_gone hl
    rw [occupantAt_eq_none] at ho ⊢
    rw [hc.generation, hc.occupant?_eq_none]
    exact ⟨ho, hg⟩

/-- The pins stay accounted for if the page in one frame is changed and its new pins are the new
claims on its stay, together with the pin of its load, while all other claims are as before. -/
theorem put (h : l.Accounted claims lost) {i : FrameNo} {o q : Occupant}
    (ho : l.occupant? i = some o)
    (hoff : ∀ j g, ¬ (i = j ∧ l.generation i = g) → claims' j g = claims j g)
    (hq : q.pins = claims' i (l.generation i) + q.loads) :
    (l.setOccupant i q).Accounted claims' lost := by
  have hi := lt_size_of_occupant? ho
  -- Only the present stay in frame `i` is touched, and it was not over before either.
  have at_none {j : FrameNo} {g : Nat} : ((l.setOccupant i q).frame j).occupantAt g = none ↔
      (l.frame j).occupantAt g = none := by
    rw [occupantAt_eq_none, occupantAt_eq_none, generation_setOccupant, occupant?_setOccupant hi]
    by_cases hj : i = j
    · subst hj
      rw [if_pos rfl, ho]
      exact ⟨fun hn hg => (nomatch hn hg), fun hn hg => (nomatch hn hg)⟩
    · rw [if_neg hj]
  have untouched {j : FrameNo} {g : Nat} (hn : (l.frame j).occupantAt g = none) :
      claims' j g = claims j g := by
    refine hoff j g ?_
    rintro ⟨rfl, hg⟩
    rw [occupantAt_eq_none.1 hn hg] at ho
    cases ho
  constructor
  case pins =>
    intro j p hp
    rw [occupant?_setOccupant hi] at hp
    rw [generation_setOccupant]
    by_cases hj : i = j
    · subst hj
      rw [if_pos rfl] at hp
      exact Option.some.inj hp ▸ hq
    · rw [if_neg hj] at hp
      rw [hoff j _ fun hc => hj hc.1]
      exact h.pins hp
  case fresh =>
    intro j g hg
    rw [generation_setOccupant] at hg
    rw [hoff j g, h.fresh hg]
    rintro ⟨rfl, rfl⟩
    omega
  case gone =>
    intro j g hp hn
    rw [at_none] at hn
    rw [untouched hn] at hp
    exact h.gone hp hn
  case lost_gone =>
    intro j g hl
    rw [at_none, generation_setOccupant]
    exact h.lost_gone hl

theorem setOccupant (h : l.Accounted claims lost) {i : FrameNo} {o q : Occupant}
    (ho : l.occupant? i = some o) (hp : q.pins = o.pins) (hl : q.loads = o.loads) :
    (l.setOccupant i q).Accounted claims lost := by
  refine h.put ho (fun _ _ _ => rfl) ?_
  rw [hp, hl]
  exact h.pins ho

theorem leave (h : l.Accounted claims lost) {lost' : FrameNo → Nat → Prop} {i : FrameNo}
    {o : Occupant} (ho : l.occupant? i = some o) (k : PageKey)
    (hi : claims i (l.generation i) ≠ 0 → lost' i (l.generation i))
    (hl : ∀ j g, lost j g → lost' j g)
    (hl' : ∀ j g, lost' j g → lost j g ∨ (i = j ∧ l.generation i = g)) :
    (l.vacate i k).Accounted claims lost' := by
  have hsize := lt_size_of_occupant? ho
  have at_none {j : FrameNo} {g : Nat} : ((l.vacate i k).frame j).occupantAt g = none ↔
      (l.frame j).occupantAt g = none ∨ (i = j ∧ l.generation i = g) := by
    rw [occupantAt_eq_none, occupantAt_eq_none, generation_vacate, occupant?_vacate hsize]
    by_cases hj : i = j
    · subst hj
      simp only [if_true, implies_true, true_and, true_iff]
      by_cases hg : l.generation i = g
      · exact .inr hg
      · exact .inl fun he => (hg he).elim
    · simp only [hj, if_false, false_and, or_false]
  constructor
  case pins =>
    intro j p hp
    rw [occupant?_vacate hsize] at hp
    rw [generation_vacate]
    split at hp
    · cases hp
    · exact h.pins hp
  case fresh =>
    intro j g hg
    rw [generation_vacate] at hg
    exact h.fresh hg
  case gone =>
    intro j g hp hn
    rcases at_none.1 hn with hn | ⟨rfl, rfl⟩
    · exact hl j g (h.gone hp hn)
    · exact hi hp
  case lost_gone =>
    intro j g hg
    rw [at_none, generation_vacate]
    rcases hl' j g hg with hg | ⟨rfl, rfl⟩
    · obtain ⟨hn, hle⟩ := h.lost_gone hg
      exact ⟨.inl hn, hle⟩
    · exact ⟨.inr ⟨rfl, rfl⟩, Nat.le_refl _⟩

theorem vacate (h : l.Accounted claims lost) {i : FrameNo} {o : Occupant}
    (ho : l.occupant? i = some o) (hs : o.standing = .available) (k : PageKey) :
    (l.vacate i k).Accounted claims lost := by
  refine h.leave ho k (fun hc => ?_) (fun _ _ => id) (fun _ _ => .inl)
  have hp := h.pins ho
  rw [(Occupant.standing_eq_available.1 hs).1] at hp
  omega

theorem eased {labels : Labels} (h : l.Accounted claims lost) (he : l.Eased labels l') :
    l'.Accounted claims lost := by
  induction he with
  | cooled hc => exact h.cooled hc
  | vacated _ ho hs _ ih => exact ih.vacate ho hs _

theorem install (h : l.Accounted claims lost) {i : FrameNo} (hi : i < l.size)
    (ho : l.occupant? i = none) (k : PageKey) (file : FileNo) (page : PageNo) :
    (l.install i k file page).Accounted claims lost := by
  have at_none {j : FrameNo} {g : Nat} (hg : g ≤ l.generation j) :
      ((l.install i k file page).frame j).occupantAt g = none ↔
        (l.frame j).occupantAt g = none := by
    rw [occupantAt_eq_none, occupantAt_eq_none, generation_install hi, occupant?_install hi]
    by_cases hj : i = j
    · subst hj
      rw [if_pos rfl, if_pos rfl, ho]
      refine ⟨fun _ _ => rfl, fun _ hg' => ?_⟩
      omega
    · rw [if_neg hj, if_neg hj, Nat.add_zero]
  constructor
  case pins =>
    intro j p hp
    rw [occupant?_install hi] at hp
    rw [generation_install hi]
    split at hp
    · next hj =>
      subst hj
      obtain rfl := Option.some.inj hp
      rw [if_pos rfl, h.fresh (Nat.lt_succ_self _)]
      rfl
    · next hj =>
      rw [if_neg hj]
      exact h.pins hp
  case fresh =>
    intro j g hg
    rw [generation_install hi] at hg
    refine h.fresh ?_
    omega
  case gone =>
    intro j g hp hn
    rcases Nat.lt_or_ge (l.generation j) g with hg | hg
    · exact (hp (h.fresh hg)).elim
    · exact h.gone hp ((at_none hg).1 hn)
  case lost_gone =>
    intro j g hl
    obtain ⟨hn, hg⟩ := h.lost_gone hl
    refine ⟨(at_none hg).2 hn, ?_⟩
    rw [generation_install hi]
    omega

theorem forget (h : l.Accounted claims lost) {i : FrameNo} {g : Nat}
    (hn : (l.frame i).occupantAt g = none)
    (hoff : ∀ j g', ¬ (i = j ∧ g = g') → claims' j g' = claims j g')
    (hle : claims' i g ≤ claims i g) : l.Accounted claims' lost := by
  have fewer (j : FrameNo) (g' : Nat) : claims' j g' ≤ claims j g' := by
    by_cases hj : i = j ∧ g = g'
    · obtain ⟨rfl, rfl⟩ := hj
      exact hle
    · exact Nat.le_of_eq (hoff j g' hj)
  constructor
  case pins =>
    intro j p hp
    rw [hoff j, h.pins hp]
    rintro ⟨rfl, rfl⟩
    rw [occupantAt_eq_none.1 hn rfl] at hp
    cases hp
  case fresh =>
    intro j g' hg
    have := fewer j g'
    rw [h.fresh hg] at this
    omega
  case gone =>
    intro j g' hp hn'
    refine h.gone ?_ hn'
    have := fewer j g'
    omega
  case lost_gone => exact h.lost_gone

end Accounted

end Ledger

end SecondChance
