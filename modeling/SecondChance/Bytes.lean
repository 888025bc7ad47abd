/-!
Byte strings of any length: the contents of an operating system file, and the little-endian words
that are kept inside pages.

A string is changed in two ways, by `resize` and by `overwrite`. Both are described by what they do
to the length and to each single byte, so no later argument has to look at how the bytes are moved.
-/

namespace SecondChance

abbrev Bytes := Array UInt8

namespace Bytes

/-- The bytes `bs` written over `a` from position `off` on. What would fall past the end of `a` is
left out, so the length stays. -/
def patch (a : Bytes) (off : Nat) : List UInt8 → Bytes
  | [] => a
  | b :: bs => patch (a.setIfInBounds off b) (off + 1) bs

@[simp] theorem size_patch (a : Bytes) (off : Nat) (bs : List UInt8) :
    (patch a off bs).size = a.size := by
  induction bs generalizing a off with
  | nil => rfl
  | cons b bs ih => simp [patch, ih]

theorem getElem?_patch (a : Bytes) (off : Nat) (bs : List UInt8) (i : Nat) :
    (patch a off bs)[i]? =
      if off ≤ i ∧ i < off + bs.length ∧ i < a.size then bs[i - off]? else a[i]? := by
  induction bs generalizing a off with
  | nil => simp [patch, show ¬ (off ≤ i ∧ i < off ∧ i < a.size) by omega]
  | cons b bs ih =>
    rw [patch, ih, Array.size_setIfInBounds, Array.getElem?_setIfInBounds, List.length_cons]
    by_cases hi : off = i
    · subst hi
      rw [if_neg (by omega), if_pos rfl]
      by_cases hs : off < a.size
      · rw [if_pos hs, if_pos (by omega), Nat.sub_self, List.getElem?_cons_zero]
      · rw [if_neg hs, if_neg (by omega), Array.getElem?_eq_none (by omega)]
    · by_cases hr : off + 1 ≤ i ∧ i < off + 1 + bs.length ∧ i < a.size
      · have hr' : off ≤ i ∧ i < off + (bs.length + 1) ∧ i < a.size := by omega
        obtain ⟨k, rfl⟩ : ∃ k, i = off + 1 + k := ⟨i - (off + 1), by omega⟩
        rw [if_pos hr, if_pos hr', show off + 1 + k - off = k + 1 by omega,
          show off + 1 + k - (off + 1) = k by omega, List.getElem?_cons_succ]
      · have hr' : ¬ (off ≤ i ∧ i < off + (bs.length + 1) ∧ i < a.size) := by omega
        rw [if_neg hr, if_neg hr', if_neg hi]

def extend (a : Bytes) (n : Nat) : Bytes :=
  if n ≤ a.size then a else a ++ Array.replicate (n - a.size) 0

@[simp] theorem size_extend (a : Bytes) (n : Nat) : (extend a n).size = max a.size n := by
  unfold extend
  split
  · omega
  · rw [Array.size_append, Array.size_replicate]
    omega

theorem getElem?_extend (a : Bytes) (n i : Nat) :
    (extend a n)[i]? = if a.size ≤ i ∧ i < n then some 0 else a[i]? := by
  unfold extend
  split
  · rw [if_neg (by omega)]
  · rw [Array.getElem?_append]
    split
    · rw [if_neg (by omega)]
    · rw [Array.getElem?_replicate]
      by_cases h : i < n
      · rw [if_pos (by omega), if_pos (by omega)]
      · rw [if_neg (by omega), if_neg (by omega), Array.getElem?_eq_none (by omega)]

def resize (a : Bytes) (n : Nat) : Bytes :=
  if n ≤ a.size then a.extract 0 n else extend a n

@[simp] theorem size_resize (a : Bytes) (n : Nat) : (resize a n).size = n := by
  unfold resize
  split
  · rw [Array.size_extract]
    omega
  · rw [size_extend]
    omega

/-- The bytes `b` written at offset `off`. Writing past the end first fills the gap with zeros, and
writing nothing changes nothing, wherever it is written. -/
def overwrite (a : Bytes) (off : Nat) (b : Bytes) : Bytes :=
  if b.isEmpty then a else patch (extend a (off + b.size)) off b.toList

theorem size_overwrite {a : Bytes} {off : Nat} {b : Bytes} (h : b.size ≠ 0) :
    (overwrite a off b).size = max a.size (off + b.size) := by
  have hb : b.isEmpty = false := by simpa [Array.isEmpty] using h
  simp [overwrite, hb]

/-- An overwritten byte is the new one where the write lies, zero in a gap that the write leaves
behind the old end, and the old one elsewhere. -/
theorem getElem?_overwrite {a : Bytes} {off : Nat} {b : Bytes} (h : b.size ≠ 0) (i : Nat) :
    (overwrite a off b)[i]? =
      if off ≤ i ∧ i < off + b.size then b[i - off]?
      else if a.size ≤ i ∧ i < off then some 0 else a[i]? := by
  have hb : b.isEmpty = false := by simpa [Array.isEmpty] using h
  simp only [overwrite, hb, Bool.false_eq_true, if_false, getElem?_patch, getElem?_extend,
    size_extend, Array.length_toList, Array.getElem?_toList]
  by_cases hw : off ≤ i ∧ i < off + b.size
  · rw [if_pos hw, if_pos (by omega)]
  · rw [if_neg hw, if_neg (by omega)]
    by_cases hg : a.size ≤ i ∧ i < off
    · rw [if_pos hg, if_pos (by omega)]
    · rw [if_neg hg, if_neg (by omega)]

/-! ### Words -/

/-- The `w` bytes of `n`, least significant first. Higher bytes are dropped. -/
def ofWord : Nat → Nat → List UInt8
  | 0, _ => []
  | w + 1, n => UInt8.ofNat (n % 256) :: ofWord w (n / 256)

/-- The number whose bytes, least significant first, are given. -/
def toWord : List UInt8 → Nat
  | [] => 0
  | b :: bs => b.toNat + 256 * toWord bs

@[simp] theorem length_ofWord (w n : Nat) : (ofWord w n).length = w := by
  induction w generalizing n with
  | zero => rfl
  | succ w ih => simp [ofWord, ih]

theorem toWord_ofWord (w n : Nat) : toWord (ofWord w n) = n % Nat.pow 256 w := by
  induction w generalizing n with
  | zero => simp [ofWord, toWord, Nat.mod_one]
  | succ w ih =>
    have h : (UInt8.ofNat (n % 256)).toNat = n % 256 :=
      UInt8.toNat_ofNat_of_lt' (Nat.mod_lt n (by decide))
    have hpow : Nat.pow 256 (w + 1) = 256 * Nat.pow 256 w := Nat.pow_succ'
    rw [ofWord, toWord, ih, h, hpow, Nat.mod_mul]

end Bytes

end SecondChance
