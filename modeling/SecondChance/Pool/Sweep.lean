import SecondChance.Pool.Ledger
import SecondChance.Error

/-!
The clock sweep, which finds a frame for a page that is not resident.

The hand goes from frame to frame. An empty frame is taken at once. A page with its reference bit
set loses the bit and is spared, its second chance; a page that is pinned or being moved is passed
over; any other page has to go. If it is clean its frame is emptied, and if it is dirty the frame is
claimed so that the page can be written back first.

One revolution is enough to empty a frame, or to know that none can be emptied, unless pages lost
their reference bit in it. The second revolution finds those without the bit, so there is never a
third.
-/

namespace SecondChance

inductive Victim
  /-- An empty frame, with the number of the page that had to leave it. -/
  | vacant (frame : FrameNo) (evicted : Option PageNo)
  /-- A dirty page whose frame has been claimed for writing it back. -/
  | dirty (stay : Stay)
  /-- A frame worth waiting for, because every page that is not pinned is being moved. -/
  | busy (frame : FrameNo)

/-- How a revolution of the hand ends: with a frame, or back where it began. In the second case it
is known whether an available page was passed, and which busy frame came first. -/
inductive Round
  | found (victim : Victim)
  | passed (available : Bool) (firstBusy : Option FrameNo)

namespace Ledger

/-- Moves the hand on by one frame and decides about what it finds there: the victim, or the
standing of the page that was passed over. -/
def visit (labels : Labels) (l : Ledger) : Ledger × (Victim ⊕ Standing) :=
  let l := l.advance
  let i := l.hand
  match l.occupant? i with
  | none => (l, .inl (.vacant i none))
  | some o =>
    if o.referenced then
      (l.setOccupant i { o with referenced := false }, .inr o.standing)
    else
      match o.standing with
      | .available =>
        if o.dirty then
          (l.setOccupant i o.claimed, .inl (.dirty ⟨o.file, o.page, i, (l.frame i).generation⟩))
        else
          (l.vacate i (o.key labels), .inl (.vacant i (some o.page)))
      | passed => (l, .inr passed)

/-- Visits up to `n` frames, until one of them is a victim. -/
def revolve (labels : Labels) : (n : Nat) → Ledger → (available : Bool) →
    (firstBusy : Option FrameNo) → Ledger × Round
  | 0, l, available, firstBusy => (l, .passed available firstBusy)
  | n + 1, l, available, firstBusy =>
    match l.visit labels with
    | (l, .inl victim) => (l, .found victim)
    | (l, .inr .available) => revolve labels n l true firstBusy
    | (l, .inr .busy) => revolve labels n l available (firstBusy <|> some l.hand)
    | (l, .inr .pinned) => revolve labels n l available firstBusy

def spent (l : Ledger) : Option FrameNo → Except PoolError Victim
  | some i => .ok (.busy i)
  | none => .error (.exhausted l.size)

def sweep (labels : Labels) (l : Ledger) : Ledger × Except PoolError Victim :=
  match l.revolve labels l.size false none with
  | (l, .found victim) => (l, .ok victim)
  | (l, .passed false firstBusy) => (l, l.spent firstBusy)
  | (l, .passed true _) =>
    match l.revolve labels l.size false none with
    | (l, .found victim) => (l, .ok victim)
    | (l, .passed _ firstBusy) => (l, l.spent firstBusy)

end Ledger

end SecondChance
