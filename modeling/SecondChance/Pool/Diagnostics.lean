import SecondChance.Pool.Ledger

/-!
What a pool shows of itself: one snapshot per frame, the position of the clock hand, three counts,
and a text with a line for every frame.
-/

namespace SecondChance

structure Snapshot where
  frame : FrameNo
  /-- The page in the frame, with what its file answered about itself. -/
  occupant : Option (FileLabel × Occupant)

structure Diagnostics where
  frames : List Snapshot
  hand : FrameNo

namespace Ledger

def snapshot (labels : Labels) (l : Ledger) (i : FrameNo) : Snapshot :=
  ⟨i, (l.occupant? i).map fun o => (labels o.file, o)⟩

def diagnostics (labels : Labels) (l : Ledger) : Diagnostics :=
  ⟨(List.range l.size).map (l.snapshot labels), l.hand⟩

end Ledger

def bit (b : Bool) : Nat := if b then 1 else 0

namespace Diagnostics

def count (d : Diagnostics) (p : Occupant → Bool) : Nat :=
  d.frames.countP fun s => s.occupant.any fun (_, o) => p o

def valid (d : Diagnostics) : Nat := d.count fun _ => true

def pinned (d : Diagnostics) : Nat := d.count fun o => o.pins > 0

def dirty (d : Diagnostics) : Nat := d.count (·.dirty)

def line (s : Snapshot) : String :=
  match s.occupant with
  | none => s!"frame {s.frame}: empty"
  | some (label, o) =>
    s!"frame {s.frame}: file={label.name} ({label.id.text}) page={o.page} pin={o.pins} "
      ++ s!"ref={bit o.referenced} dirty={bit o.dirty} io={o.io.text}"

/-- The lines for all frames, and the number of those that hold a page. -/
def lines (d : Diagnostics) : List String :=
  d.frames.map line ++ [s!"valid frames: {d.valid}"]

def text (d : Diagnostics) : String := "\n".intercalate d.lines

end Diagnostics

end SecondChance
