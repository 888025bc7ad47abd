import SecondChance.Table

/-!
How many values of a table have a property.

A fresh key adds its value to the count, a key that is erased takes its value away, and a change of
a value that keeps the property keeps the count.
-/

namespace SecondChance.Table

variable {κ β : Type} [DecidableEq κ]

def tally (t : Table κ β) (p : β → Bool) : Nat := t.entries.countP fun e => p e.2

theorem countP_putIn {k : κ} {l : List (κ × β)} (h : findIn k l = none) (v : β) (p : β → Bool) :
    (putIn k v l).countP (fun e => p e.2) =
      l.countP (fun e => p e.2) + if p v then 1 else 0 := by
  induction l with
  | nil => simp [putIn, List.countP_cons]
  | cons e r ih =>
    rw [findIn] at h
    split at h
    · cases h
    · next hne =>
      rw [putIn, if_neg hne, List.countP_cons, List.countP_cons, ih h]
      omega

theorem countP_filter_key {k : κ} {v : β} {l : List (κ × β)} (hl : (l.map Prod.fst).Nodup)
    (h : findIn k l = some v) (p : β → Bool) :
    (l.filter fun e => e.1 ≠ k).countP (fun e => p e.2) + (if p v then 1 else 0) =
      l.countP (fun e => p e.2) := by
  induction l with
  | nil => cases h
  | cons e r ih =>
    rw [List.map_cons, List.nodup_cons] at hl
    rw [findIn] at h
    split at h
    · next he =>
      obtain rfl := Option.some.inj h
      subst he
      have hr : r.filter (fun x => x.1 ≠ e.1) = r := by
        refine List.filter_eq_self.2 fun x hx => ?_
        have hne : x.1 ≠ e.1 := fun hxe => hl.1 (hxe ▸ List.mem_map_of_mem hx)
        simpa using hne
      rw [List.filter_cons_of_neg (by simp), hr, List.countP_cons]
    · next he =>
      rw [List.filter_cons_of_pos (by simpa using he), List.countP_cons, List.countP_cons,
        ← ih hl.2 h]
      omega

theorem countP_modifyIn (k : κ) {f : β → β} {p : β → Bool} (hf : ∀ v, p (f v) = p v)
    (l : List (κ × β)) :
    (modifyIn k f l).countP (fun e => p e.2) = l.countP (fun e => p e.2) := by
  induction l with
  | nil => rfl
  | cons e r ih =>
    rw [modifyIn]
    split
    · rw [List.countP_cons, List.countP_cons, hf]
    · rw [List.countP_cons, List.countP_cons, ih]

variable (t : Table κ β) {k : κ} (p : β → Bool)

theorem tally_insert (h : t.find? k = none) (v : β) :
    (t.insert k v).tally p = t.tally p + if p v then 1 else 0 :=
  countP_putIn h v p

theorem tally_erase {v : β} (h : t.find? k = some v) :
    (t.erase k).tally p + (if p v then 1 else 0) = t.tally p :=
  countP_filter_key t.nodup_keys h p

theorem tally_modify {f : β → β} (hf : ∀ v, p (f v) = p v) :
    (t.modify k f).tally p = t.tally p :=
  countP_modifyIn k hf t.entries

theorem tally_pos {v : β} (h : t.find? k = some v) (hp : p v = true) : 0 < t.tally p :=
  List.countP_pos_iff.2 ⟨(k, v), (t.mem_entries_iff k v).2 h, hp⟩

theorem exists_of_tally_ne_zero (h : t.tally p ≠ 0) : ∃ k v, t.find? k = some v ∧ p v = true := by
  obtain ⟨⟨k, v⟩, he, hp⟩ := List.countP_pos_iff.1 (Nat.pos_of_ne_zero h)
  exact ⟨k, v, (t.mem_entries_iff k v).1 he, hp⟩

end SecondChance.Table
