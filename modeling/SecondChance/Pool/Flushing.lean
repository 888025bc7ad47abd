import SecondChance.Pool.Ledger
import SecondChance.Error

/-!
Writing pages back and removing them, as far as the ledger is concerned.

A page that is to be written back is *claimed*: it counts as clean and its frame as busy while the
transfer is under way. `settle` ends a transfer, and puts the frame to rest in whichever way the
transfer went. Flushing one file empties its frames; flushing everything leaves all pages where they
are.
-/

namespace SecondChance

/-- What is to be done about one frame. -/
inductive Flush
  /-- Nothing more. -/
  | done
  /-- The frame is busy; look again once that is over. -/
  | wait (frame : FrameNo)
  /-- The page has been claimed and is to be written back. -/
  | writeBack (stay : Stay)

namespace Ledger

/-- Ends a transfer. A failed load empties the frame, and a page that could not be written back is
dirty again. Nothing happens if the frame has moved on. -/
def settle (labels : Labels) (l : Ledger) (t : Transfer) (succeeded : Bool) : Ledger :=
  match (l.frame t.stay.frame).occupantAt t.stay.generation with
  | none => l
  | some o =>
    if o.io = .busy t.kind then
      match t.kind, succeeded with
      | .load, false => l.vacate t.stay.frame (o.key labels)
      | .writeBack, false => l.setOccupant t.stay.frame { o with io := .idle, dirty := true }
      | _, true => l.setOccupant t.stay.frame { o with io := .idle }
    else l

def stayOf (l : Ledger) (i : FrameNo) (o : Occupant) : Stay :=
  ⟨o.file, o.page, i, (l.frame i).generation⟩

/-- Decides about one frame in the course of flushing the file that reports `id`. -/
def flushFileAt (labels : Labels) (l : Ledger) (i : FrameNo) (id : FileId) :
    Ledger × Except PoolError Flush :=
  match l.occupant? i with
  | none => (l, .ok .done)
  | some o =>
    let label := labels o.file
    if label.id ≠ id then (l, .ok .done)
    else if l.table.find? (o.key labels) ≠ some i then
      (l, .error (.inconsistent i (.notMappedHere o.page label.name)))
    else if o.pins ≠ 0 then (l, .error (.pinned label.name o.page i))
    else if o.io ≠ .idle then (l, .ok (.wait i))
    else if o.dirty then (l.setOccupant i o.claimed, .ok (.writeBack (l.stayOf i o)))
    else (l.vacate i (o.key labels), .ok .done)

/-- Decides about one frame in the course of flushing everything. A page that is being loaded has
nothing to write. -/
def flushAllAt (l : Ledger) (i : FrameNo) : Ledger × Flush :=
  match l.occupant? i with
  | none => (l, .done)
  | some o =>
    match o.io, o.dirty with
    | .busy .writeBack, _ => (l, .wait i)
    | .idle, true => (l.setOccupant i o.claimed, .writeBack (l.stayOf i o))
    | _, _ => (l, .done)

/-- Takes a page out of the pool without writing it, or says which frame to wait for first: `none`
means that the page is not resident any more. The page is looked up under `key`, and errors name it
by its file and number. -/
def expel (l : Ledger) (key : PageKey) (file : String) (page : PageNo) :
    Ledger × Except PoolError (Option FrameNo) :=
  match l.table.find? key with
  | none => (l, .ok none)
  | some i =>
    match l.occupant? i with
    | none => (l, .error (.inconsistent i (.mapsToEmpty key)))
    | some o =>
      if o.pins ≠ 0 then (l, .error (.pinned file page i))
      else if o.io ≠ .idle then (l, .ok (some i))
      else (l.vacate i key, .ok none)

def dirtyCount (l : Ledger) : Nat :=
  l.frames.countP fun f => f.occupant.any (·.dirty)

end Ledger

end SecondChance
