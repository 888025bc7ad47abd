import SecondChance.Identity

/-!
Frames: the places of a pool, each of which holds one page or none.

What belongs to the page that a frame holds is part of its `Occupant`, so an empty frame has no pins
and cannot be dirty. A frame counts its occupants; the count at which a page came in is the
`generation` that tells its stay in the frame from every later one.
-/

namespace SecondChance

inductive Transfer.Kind
  | load
  | writeBack
  deriving DecidableEq

/-- What is going on with the content of an occupied frame. -/
inductive FrameIo
  | idle
  | busy (kind : Transfer.Kind)
  deriving DecidableEq

def FrameIo.text : FrameIo → String
  | .idle => "Idle"
  | .busy .load => "Loading"
  | .busy .writeBack => "WritingBack"

/-- The page that a frame holds, with all that is known about it. -/
structure Occupant where
  file : FileNo
  page : PageNo
  pins : Nat
  referenced : Bool
  dirty : Bool
  io : FrameIo
  deriving DecidableEq

/-- How far an occupant stands in the way of replacing it, its reference bit aside. -/
inductive Standing
  /-- Neither pinned nor being moved. -/
  | available
  /-- Not pinned, but being moved. -/
  | busy
  | pinned
  deriving DecidableEq

namespace Occupant

/-- The key of the page, as long as its file reports the same identity. -/
def key (labels : Labels) (o : Occupant) : PageKey := labels.key o.file o.page

def standing (o : Occupant) : Standing :=
  if o.pins ≠ 0 then .pinned else if o.io = .idle then .available else .busy

/-- The page may be chosen to leave its frame: nobody has it, nothing is under way with it and it
has not been used lately. -/
def isEvictable (o : Occupant) : Bool :=
  o.standing = .available ∧ o.referenced = false

theorem standing_eq_available {o : Occupant} :
    o.standing = .available ↔ o.pins = 0 ∧ o.io = .idle := by
  unfold standing
  split
  · simp_all
  · split <;> simp_all

theorem standing_eq_busy {o : Occupant} : o.standing = .busy ↔ o.pins = 0 ∧ o.io ≠ .idle := by
  unfold standing
  split
  · simp_all
  · split <;> simp_all

theorem standing_eq_pinned {o : Occupant} : o.standing = .pinned ↔ o.pins ≠ 0 := by
  unfold standing
  split
  · simp_all
  · split <;> simp_all

/-- A page that has just been given a frame, pinned by the one who will load it. -/
def arriving (file : FileNo) (page : PageNo) : Occupant :=
  ⟨file, page, 1, true, false, .busy .load⟩

def pin (o : Occupant) : Occupant := { o with pins := o.pins + 1, referenced := true }

/-- One pin less, if there is one. A page stays dirty once it is. -/
def unpin? (o : Occupant) (dirty : Bool) : Option Occupant :=
  if o.pins = 0 then none else some { o with pins := o.pins - 1, dirty := o.dirty || dirty }

/-- The page is being written back and counts as clean until that fails. -/
def claimed (o : Occupant) : Occupant := { o with dirty := false, io := .busy .writeBack }

end Occupant

structure Frame where
  /-- How many pages have been put here so far. -/
  generation : Nat
  occupant : Option Occupant

namespace Frame

def unused : Frame := ⟨0, none⟩

instance : Inhabited Frame := ⟨unused⟩

def clear (f : Frame) : Frame := { f with occupant := none }

def install (f : Frame) (file : FileNo) (page : PageNo) : Frame :=
  ⟨f.generation + 1, some (.arriving file page)⟩

/-- The occupant, provided that it is still the one of generation `g`. -/
def occupantAt (f : Frame) (g : Nat) : Option Occupant :=
  if f.generation = g then f.occupant else none

end Frame

/-- One stay of a page in a frame: which page, where, and under which generation. -/
structure Stay where
  file : FileNo
  page : PageNo
  frame : FrameNo
  generation : Nat
  deriving DecidableEq

/-- A page that is being moved between its frame and its file. -/
structure Transfer where
  kind : Transfer.Kind
  stay : Stay
  deriving DecidableEq

end SecondChance
