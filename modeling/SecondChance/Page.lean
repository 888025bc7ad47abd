import SecondChance.Bytes

/-!
Pages: blocks of exactly `pageSize` bytes, the unit in which everything is stored, cached and
handed out.

The length is part of the type, so a page can go from a file into a frame and back without anyone
asking again whether it fits.
-/

namespace SecondChance

def pageSize : Nat := 8192

/-- The number of a page in its file; page `n` of a file on disk lies at byte `n * pageSize`. -/
abbrev PageNo := Nat

abbrev Page := Vector UInt8 pageSize

namespace Page

def zero : Page := Vector.replicate pageSize 0

def filled (b : UInt8) : Page := Vector.replicate pageSize b

def patch (p : Page) (off : Nat) (bs : List UInt8) : Page :=
  ⟨Bytes.patch p.toArray off bs, by simp⟩

@[simp] theorem toArray_patch (p : Page) (off : Nat) (bs : List UInt8) :
    (p.patch off bs).toArray = Bytes.patch p.toArray off bs := rfl

/-- The eight bytes of slot `slot`. A page has `pageSize / 8` slots, and bytes past its end count as
zeros. -/
def slotBytes (p : Page) (slot : Nat) : List UInt8 :=
  (List.range 8).map fun i => p.toArray.getD (slot * 8 + i) 0

def word (p : Page) (slot : Nat) : Nat := Bytes.toWord (p.slotBytes slot)

def setWord (p : Page) (slot n : Nat) : Page := p.patch (slot * 8) (Bytes.ofWord 8 n)

/-- The page that begins at byte `off` of a longer string, if the string holds all of it. -/
def slice? (a : Bytes) (off : Nat) : Option Page :=
  if h : off + pageSize ≤ a.size then
    some ⟨a.extract off (off + pageSize), by rw [Array.size_extract]; omega⟩
  else none

theorem isSome_slice? {a : Bytes} {off : Nat} :
    (slice? a off).isSome ↔ off + pageSize ≤ a.size := by
  unfold slice?
  split <;> simp_all

def outline : String := s!"PageData \x7b len: {pageSize}, .. \x7d"

/-- A change to a page, made up of up to four parts that are applied in this order: all bytes to
zero, all bytes to one value, some bytes overwritten from an offset on, and a number added to the
word of one slot. -/
structure Edit where
  clear : Bool
  fill : Option UInt8
  bytes : Option (Nat × List UInt8)
  increment : Option (Nat × Nat)

/-- The page after an edit. The addition wraps around at the end of the word. -/
def Edit.apply (e : Edit) (p : Page) : Page :=
  let p := if e.clear then zero else p
  let p := e.fill.elim p filled
  let p := e.bytes.elim p fun (off, bs) => p.patch off bs
  e.increment.elim p fun (slot, n) => p.setWord slot (p.word slot + n)

end Page

end SecondChance
