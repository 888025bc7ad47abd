/-!
Finite maps that remember the order in which their keys came.

A `Table` is a list of entries in which no key occurs twice, and that condition is part of the type.
`find?` is the view of it: every operation comes with the equation that says what can be found
afterwards, and `mem_entries_iff` says that the entries are exactly what can be found.
-/

namespace SecondChance

/-- A finite map from `κ` to `β`, listed in the order in which the keys were first entered. -/
structure Table (κ β : Type) where
  /-- The entries, oldest key first. -/
  entries : List (κ × β)
  /-- No key is entered twice. -/
  nodup_keys : (entries.map Prod.fst).Nodup

namespace Table

variable {κ β : Type} [DecidableEq κ]

def findIn (k : κ) : List (κ × β) → Option β
  | [] => none
  | e :: r => if e.1 = k then some e.2 else findIn k r

/-- The entries with `k` given the value `v`, in its old place or at the end. -/
def putIn (k : κ) (v : β) : List (κ × β) → List (κ × β)
  | [] => [(k, v)]
  | e :: r => if e.1 = k then (k, v) :: r else e :: putIn k v r

def modifyIn (k : κ) (f : β → β) : List (κ × β) → List (κ × β)
  | [] => []
  | e :: r => if e.1 = k then (e.1, f e.2) :: r else e :: modifyIn k f r

theorem mem_keys_putIn {k : κ} {v : β} {l : List (κ × β)} {x : κ} :
    x ∈ (putIn k v l).map Prod.fst ↔ x = k ∨ x ∈ l.map Prod.fst := by
  induction l with
  | nil => simp [putIn]
  | cons e r ih =>
    unfold putIn
    split
    · next h => simp [h]
    · simp only [List.map_cons, List.mem_cons, ih, or_left_comm]

theorem nodup_putIn {k : κ} {v : β} {l : List (κ × β)} (h : (l.map Prod.fst).Nodup) :
    ((putIn k v l).map Prod.fst).Nodup := by
  induction l with
  | nil => simp [putIn]
  | cons e r ih =>
    rw [List.map_cons, List.nodup_cons] at h
    unfold putIn
    split
    · next he => simpa [← he] using h
    · next he =>
      rw [List.map_cons, List.nodup_cons, mem_keys_putIn]
      exact ⟨fun hm => hm.elim he h.1, ih h.2⟩

@[simp] theorem keys_modifyIn (k : κ) (f : β → β) (l : List (κ × β)) :
    (modifyIn k f l).map Prod.fst = l.map Prod.fst := by
  induction l with
  | nil => rfl
  | cons e r ih =>
    unfold modifyIn
    split <;> simp [ih]

omit [DecidableEq κ] in
theorem nodup_keys_filter {l : List (κ × β)} (p : κ × β → Bool) (h : (l.map Prod.fst).Nodup) :
    ((l.filter p).map Prod.fst).Nodup :=
  h.sublist (List.filter_sublist.map Prod.fst)

def empty : Table κ β := ⟨[], List.nodup_nil⟩

instance : Inhabited (Table κ β) := ⟨empty⟩

def find? (t : Table κ β) (k : κ) : Option β := findIn k t.entries

def contains (t : Table κ β) (k : κ) : Bool := (t.find? k).isSome

def keys (t : Table κ β) : List κ := t.entries.map Prod.fst

def size (t : Table κ β) : Nat := t.entries.length

def insert (t : Table κ β) (k : κ) (v : β) : Table κ β :=
  ⟨putIn k v t.entries, nodup_putIn t.nodup_keys⟩

def erase (t : Table κ β) (k : κ) : Table κ β :=
  ⟨t.entries.filter (fun e => e.1 ≠ k), nodup_keys_filter _ t.nodup_keys⟩

def modify (t : Table κ β) (k : κ) (f : β → β) : Table κ β :=
  ⟨modifyIn k f t.entries, by rw [keys_modifyIn]; exact t.nodup_keys⟩

@[simp] theorem find?_empty (k : κ) : (empty : Table κ β).find? k = none := rfl

theorem find?_of_isEmpty {t : Table κ β} (h : t.entries.isEmpty = true) (k : κ) :
    t.find? k = none := by
  rw [find?, List.isEmpty_iff.1 h]
  rfl

omit [DecidableEq κ] in
@[simp] theorem size_empty : (empty : Table κ β).size = 0 := rfl

theorem find?_insert (t : Table κ β) (k : κ) (v : β) (x : κ) :
    (t.insert k v).find? x = if k = x then some v else t.find? x := by
  obtain ⟨l, hl⟩ := t
  show findIn x (putIn k v l) = if k = x then some v else findIn x l
  clear hl
  induction l with
  | nil => simp [putIn, findIn]
  | cons e r ih =>
    unfold putIn
    split
    · next h =>
      subst h
      simp only [findIn]
      split <;> rfl
    · next h =>
      simp only [findIn, ih]
      by_cases hx : e.1 = x
      · rw [if_pos hx, if_pos hx, if_neg (fun hk => h (hx.trans hk.symm))]
      · rw [if_neg hx, if_neg hx]

theorem find?_erase (t : Table κ β) (k x : κ) :
    (t.erase k).find? x = if k = x then none else t.find? x := by
  obtain ⟨l, hl⟩ := t
  show findIn x (l.filter _) = if k = x then none else findIn x l
  clear hl
  induction l with
  | nil => simp [findIn]
  | cons e r ih =>
    by_cases h : e.1 = k
    · rw [List.filter_cons_of_neg (by simp [h]), ih]
      by_cases hk : k = x
      · rw [if_pos hk, if_pos hk]
      · rw [if_neg hk, if_neg hk, findIn, if_neg (fun hx => hk (h.symm.trans hx))]
    · rw [List.filter_cons_of_pos (by simp [h]), findIn, findIn, ih]
      by_cases hx : e.1 = x
      · rw [if_pos hx, if_pos hx, if_neg (fun hk => h (hx.trans hk.symm))]
      · rw [if_neg hx, if_neg hx]

theorem find?_modify (t : Table κ β) (k : κ) (f : β → β) (x : κ) :
    (t.modify k f).find? x = if k = x then (t.find? x).map f else t.find? x := by
  obtain ⟨l, hl⟩ := t
  show findIn x (modifyIn k f l) = if k = x then (findIn x l).map f else findIn x l
  clear hl
  induction l with
  | nil => simp [modifyIn, findIn]
  | cons e r ih =>
    unfold modifyIn
    split
    · next h =>
      subst h
      by_cases hx : e.1 = x <;> simp [findIn, hx]
    · next h =>
      rw [findIn, findIn, ih]
      by_cases hx : e.1 = x
      · rw [if_pos hx, if_pos hx, if_neg (fun hk => h (hx.trans hk.symm))]
      · rw [if_neg hx, if_neg hx]

@[simp] theorem find?_insert_self (t : Table κ β) (k : κ) (v : β) :
    (t.insert k v).find? k = some v := by
  rw [find?_insert, if_pos rfl]

theorem insert_self {t : Table κ β} {k : κ} {v : β} (h : t.find? k = some v) : t.insert k v = t := by
  have same {l : List (κ × β)} (h : findIn k l = some v) : putIn k v l = l := by
    induction l with
    | nil => cases h
    | cons e r ih =>
      rw [findIn] at h
      rw [putIn]
      split at h
      · next he =>
        obtain rfl := Option.some.inj h
        rw [if_pos he, ← he]
      · next he => rw [if_neg he, ih h]
  obtain ⟨l, hl⟩ := t
  have entries : putIn k v l = l := same h
  simp only [insert, entries]

@[simp] theorem find?_erase_self (t : Table κ β) (k : κ) : (t.erase k).find? k = none := by
  rw [find?_erase, if_pos rfl]

theorem mem_of_findIn {k : κ} {v : β} {l : List (κ × β)} (h : findIn k l = some v) :
    (k, v) ∈ l := by
  induction l with
  | nil => simp [findIn] at h
  | cons e r ih =>
    rw [findIn] at h
    split at h
    · next he =>
      obtain rfl : e.2 = v := Option.some.inj h
      rw [← he]
      exact List.mem_cons_self
    · exact List.mem_cons_of_mem _ (ih h)

theorem findIn_of_mem {k : κ} {v : β} {l : List (κ × β)} (hl : (l.map Prod.fst).Nodup)
    (h : (k, v) ∈ l) : findIn k l = some v := by
  induction l with
  | nil => simp at h
  | cons e r ih =>
    rw [List.map_cons, List.nodup_cons] at hl
    rw [findIn]
    rcases List.mem_cons.1 h with rfl | hr
    · rw [if_pos rfl]
    · have hk : k ∈ r.map Prod.fst := List.mem_map.2 ⟨(k, v), hr, rfl⟩
      have hne : e.1 ≠ k := fun he => hl.1 (he ▸ hk)
      rw [if_neg hne, ih hl.2 hr]

theorem mem_entries_iff (t : Table κ β) (k : κ) (v : β) :
    (k, v) ∈ t.entries ↔ t.find? k = some v :=
  ⟨findIn_of_mem t.nodup_keys, mem_of_findIn⟩

end Table

end SecondChance
