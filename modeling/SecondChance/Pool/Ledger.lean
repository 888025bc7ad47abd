import SecondChance.Pool.Frame
import SecondChance.Table

/-!
The ledger of a pool: which page is in which frame.

It is written down twice, once by frame and once by page, and with it goes the position of the clock
hand. Everything that is decided about frames is decided on the ledger alone, in one uninterrupted
step; the content of the pages is kept elsewhere.
-/

namespace SecondChance

/-- The index of the resident pages: in which frame each of them is. -/
abbrev PageTable := Table PageKey FrameNo

/-- The bookkeeping of a pool. -/
structure Ledger where
  frames : Array Frame
  table : PageTable
  /-- The frame that the clock hand points at; the next sweep begins behind it. -/
  hand : FrameNo

namespace Ledger

/-- The ledger of a new pool with `n` frames. The hand rests on the last one, so the first sweep
begins with the first frame. -/
def new (n : Nat) : Ledger := ⟨Array.replicate n .unused, .empty, n - 1⟩

def size (l : Ledger) : Nat := l.frames.size

/-- A frame by its number; behind the last one every frame is empty. -/
def frame (l : Ledger) (i : FrameNo) : Frame := l.frames[i]?.getD .unused

def occupant? (l : Ledger) (i : FrameNo) : Option Occupant := (l.frame i).occupant

def setFrame (l : Ledger) (i : FrameNo) (f : Frame) : Ledger :=
  { l with frames := l.frames.setIfInBounds i f }

def setOccupant (l : Ledger) (i : FrameNo) (o : Occupant) : Ledger :=
  l.setFrame i { l.frame i with occupant := some o }

/-- The ledger with a frame emptied and the page `key` no longer in the table. -/
def vacate (l : Ledger) (i : FrameNo) (key : PageKey) : Ledger :=
  { l.setFrame i (l.frame i).clear with table := l.table.erase key }

/-- The ledger with a page put into a frame and entered into the table under `key`. -/
def install (l : Ledger) (i : FrameNo) (key : PageKey) (file : FileNo) (page : PageNo) : Ledger :=
  { l.setFrame i ((l.frame i).install file page) with table := l.table.insert key i }

def advance (l : Ledger) : Ledger := { l with hand := (l.hand + 1) % l.size }

def resident (l : Ledger) : Nat := l.table.size

/-! ### Reading a changed ledger -/

@[simp] theorem size_setFrame (l : Ledger) (i : FrameNo) (f : Frame) :
    (l.setFrame i f).size = l.size := by
  simp [size, setFrame]

@[simp] theorem table_setFrame (l : Ledger) (i : FrameNo) (f : Frame) :
    (l.setFrame i f).table = l.table := rfl

@[simp] theorem hand_setFrame (l : Ledger) (i : FrameNo) (f : Frame) :
    (l.setFrame i f).hand = l.hand := rfl

theorem frame_setFrame (l : Ledger) (i j : FrameNo) (f : Frame) :
    (l.setFrame i f).frame j = if i = j ∧ i < l.size then f else l.frame j := by
  simp only [frame, setFrame, size, Array.getElem?_setIfInBounds]
  by_cases h : i = j
  · subst h
    by_cases hi : i < l.frames.size <;> simp [hi]
  · simp [h]

@[simp] theorem frame_setFrame_of_ne (l : Ledger) {i j : FrameNo} (h : i ≠ j) (f : Frame) :
    (l.setFrame i f).frame j = l.frame j := by
  rw [frame_setFrame, if_neg fun hc => h hc.1]

@[simp] theorem size_setOccupant (l : Ledger) (i : FrameNo) (o : Occupant) :
    (l.setOccupant i o).size = l.size := size_setFrame ..

@[simp] theorem table_setOccupant (l : Ledger) (i : FrameNo) (o : Occupant) :
    (l.setOccupant i o).table = l.table := rfl

@[simp] theorem hand_setOccupant (l : Ledger) (i : FrameNo) (o : Occupant) :
    (l.setOccupant i o).hand = l.hand := rfl

@[simp] theorem size_vacate (l : Ledger) (i : FrameNo) (k : PageKey) :
    (l.vacate i k).size = l.size := size_setFrame ..

@[simp] theorem table_vacate (l : Ledger) (i : FrameNo) (k : PageKey) :
    (l.vacate i k).table = l.table.erase k := rfl

@[simp] theorem hand_vacate (l : Ledger) (i : FrameNo) (k : PageKey) :
    (l.vacate i k).hand = l.hand := rfl

@[simp] theorem size_install (l : Ledger) (i : FrameNo) (k : PageKey) (f : FileNo) (p : PageNo) :
    (l.install i k f p).size = l.size := size_setFrame ..

@[simp] theorem table_install (l : Ledger) (i : FrameNo) (k : PageKey) (f : FileNo) (p : PageNo) :
    (l.install i k f p).table = l.table.insert k i := rfl

@[simp] theorem hand_install (l : Ledger) (i : FrameNo) (k : PageKey) (f : FileNo) (p : PageNo) :
    (l.install i k f p).hand = l.hand := rfl

@[simp] theorem size_advance (l : Ledger) : l.advance.size = l.size := rfl

@[simp] theorem table_advance (l : Ledger) : l.advance.table = l.table := rfl

@[simp] theorem frame_advance (l : Ledger) (i : FrameNo) : l.advance.frame i = l.frame i := rfl

theorem lt_size_of_occupant? {l : Ledger} {i : FrameNo} {o : Occupant}
    (h : l.occupant? i = some o) : i < l.size := by
  rcases Nat.lt_or_ge i l.size with hi | hi
  · exact hi
  · rw [occupant?, frame, Array.getElem?_eq_none hi] at h
    cases h

end Ledger

end SecondChance
