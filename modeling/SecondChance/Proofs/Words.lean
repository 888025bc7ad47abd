import SecondChance.Page

/-!
Words in pages, and pages to which several edits are made.

Slots do not overlap, so a word that is written to one of them is the only one that changes. Where
all edits of a page add something to a slot, it does not matter in which order they come: every slot
ends up with what it had and all that was added to it.
-/

namespace SecondChance

namespace Bytes

theorem toWord_lt (bs : List UInt8) : toWord bs < Nat.pow 256 bs.length := by
  induction bs with
  | nil => simp [toWord]
  | cons b bs ih =>
    have hb := b.toNat_lt
    have hpow : Nat.pow 256 (bs.length + 1) = Nat.pow 256 bs.length * 256 := rfl
    rw [toWord, List.length_cons, hpow]
    omega

end Bytes

namespace Page

def slotCount : Nat := pageSize / 8

def wordLimit : Nat := Nat.pow 256 8

variable {q : Page} {i j n : Nat}

theorem slotBytes_getElem? (q : Page) (i j : Nat) :
    (q.slotBytes i)[j]? = if j < 8 then some (q.toArray.getD (i * 8 + j) 0) else none := by
  by_cases hj : j < 8
  · rw [if_pos hj, slotBytes, List.getElem?_map, List.getElem?_range hj, Option.map_some]
  · rw [if_neg hj, List.getElem?_eq_none]
    simpa [slotBytes] using hj

theorem word_lt (q : Page) (i : Nat) : q.word i < wordLimit := by
  have h := Bytes.toWord_lt (q.slotBytes i)
  rwa [slotBytes, List.length_map, List.length_range] at h

theorem slotBytes_setWord_self (hi : i < slotCount) :
    (q.setWord i n).slotBytes i = Bytes.ofWord 8 n := by
  have hsize : q.toArray.size = pageSize := q.size_toArray
  have hcount : slotCount * 8 = pageSize := by decide
  refine List.ext_getElem? fun j => ?_
  rw [slotBytes_getElem?, setWord, toArray_patch, Array.getD_eq_getD_getElem?,
    Bytes.getElem?_patch, Bytes.length_ofWord, Nat.add_sub_cancel_left]
  by_cases hj : j < 8
  · rw [if_pos hj, if_pos (by omega), List.getElem?_eq_getElem (by simpa using hj)]
    rfl
  · rw [if_neg hj, List.getElem?_eq_none (by simpa using hj)]

theorem slotBytes_setWord_of_ne (hij : i ≠ j) : (q.setWord i n).slotBytes j = q.slotBytes j := by
  refine List.ext_getElem? fun k => ?_
  simp only [slotBytes_getElem?, setWord, toArray_patch, Array.getD_eq_getD_getElem?,
    Bytes.getElem?_patch, Bytes.length_ofWord]
  by_cases hk : k < 8
  · have hout : ¬ (i * 8 ≤ j * 8 + k ∧ j * 8 + k < i * 8 + 8 ∧ j * 8 + k < q.toArray.size) := by
      omega
    rw [if_neg hout]
  · rw [if_neg hk, if_neg hk]

theorem word_setWord (hj : j < slotCount) (i : Nat) (n : Nat) :
    (q.setWord i n).word j = if i = j then n % wordLimit else q.word j := by
  by_cases hij : i = j
  · subst hij
    rw [if_pos rfl, word, slotBytes_setWord_self hj]
    exact Bytes.toWord_ofWord 8 n
  · rw [if_neg hij, word, slotBytes_setWord_of_ne hij, word]

/-! ### Several edits -/

/-- A page with edits made to it, one after the other. -/
def changed (q : Page) (edits : List (Page → Page)) : Page := edits.foldl (fun q e => e q) q

theorem changed_cons (q : Page) (e : Page → Page) (edits : List (Page → Page)) :
    q.changed (e :: edits) = (e q).changed edits := rfl

def Edit.add (slot n : Nat) : Edit := ⟨false, none, none, some (slot, n)⟩

/-- All that is added to one slot. -/
def addedTo (slot : Nat) : List (Nat × Nat) → Nat
  | [] => 0
  | (i, n) :: adds => if i = slot then n + addedTo slot adds else addedTo slot adds

theorem word_add (hj : j < slotCount) (i n : Nat) :
    ((Edit.add i n).apply q).word j = if i = j then (q.word j + n) % wordLimit else q.word j := by
  have he : (Edit.add i n).apply q = q.setWord i (q.word i + n) := rfl
  rw [he, word_setWord hj]
  split
  · next hij => rw [hij]
  · rfl

/-- Whatever is added to slots sums up. -/
theorem word_changed_add (hj : j < slotCount) (q : Page) (adds : List (Nat × Nat)) :
    (q.changed (adds.map fun a => (Edit.add a.1 a.2).apply)).word j =
      (q.word j + addedTo j adds) % wordLimit := by
  induction adds generalizing q with
  | nil =>
    simp [changed, addedTo, Nat.mod_eq_of_lt (q.word_lt j)]
  | cons a adds ih =>
    obtain ⟨i, n⟩ := a
    rw [List.map_cons, changed_cons, ih, word_add hj]
    by_cases hij : i = j
    · simp [addedTo, hij, Nat.add_assoc]
    · simp [addedTo, hij]

end Page

end SecondChance
