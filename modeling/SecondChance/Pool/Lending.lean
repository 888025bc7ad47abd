import SecondChance.Pool.Sweep

/-!
Lending pages out and taking them back, as far as the ledger is concerned.

`acquire` is the one place where a page comes into a pool: a resident page is pinned once more, any
other page gets a frame, or a page that first has to be written back, or a frame to wait for. Pins
are given back either by page (`unpinPage`) or by stay (`unpinStay`), and a stay that is over is
told from the present one by its generation.
-/

namespace SecondChance

/-- The page that had to leave a frame for another one, and whether it was written back for it. -/
inductive Departure
  | clean (page : PageNo)
  | written (page : PageNo)

/-- What asking for a page comes to. -/
inductive Acquisition
  /-- The page is resident, and now pinned once more. -/
  | hit (stay : Stay) (pins : Nat)
  /-- The page has a frame and an entry in the table, and its content has to be read. -/
  | load (stay : Stay) (departed : Option Departure)
  /-- Another page has been claimed, and has to be written back before its frame can be used. -/
  | writeBack (stay : Stay)
  /-- There is no frame before this one's transfer is over. -/
  | wait (frame : FrameNo)

namespace Ledger

/-- Empties the frame of a page that has just been written back, unless the page has been pinned,
used or changed since, or is gone. -/
def reclaim? (labels : Labels) (l : Ledger) (written : Stay) : Option (Ledger × PageNo) :=
  match (l.frame written.frame).occupantAt written.generation with
  | some o =>
    if o.isEvictable && !o.dirty then some (l.vacate written.frame (o.key labels), o.page)
    else none
  | none => none

def place (labels : Labels) (l : Ledger) (file : FileNo) (page : PageNo) (i : FrameNo)
    (departed : Option Departure) : Ledger × Except PoolError Acquisition :=
  let l := l.install i (labels.key file page) file page
  (l, .ok (.load ⟨file, page, i, (l.frame i).generation⟩ departed))

def acquireBySweep (labels : Labels) (l : Ledger) (file : FileNo) (page : PageNo) :
    Ledger × Except PoolError Acquisition :=
  match l.sweep labels with
  | (l, .error e) => (l, .error e)
  | (l, .ok (.vacant i evicted)) => l.place labels file page i (evicted.map .clean)
  | (l, .ok (.dirty stay)) => (l, .ok (.writeBack stay))
  | (l, .ok (.busy i)) => (l, .ok (.wait i))

/-- Pins a page if it is resident, and otherwise finds a frame for it. A frame whose page was
written back for this very purpose is taken first. -/
def acquire (labels : Labels) (l : Ledger) (file : FileNo) (page : PageNo) (written : Option Stay) :
    Ledger × Except PoolError Acquisition :=
  let key := labels.key file page
  match l.table.find? key with
  | some i =>
    match l.occupant? i with
    | none => (l, .error (.inconsistent i (.mapsToEmpty key)))
    | some o =>
      (l.setOccupant i o.pin, .ok (.hit ⟨file, page, i, (l.frame i).generation⟩ (o.pins + 1)))
  | none =>
    match written with
    | none => l.acquireBySweep labels file page
    | some stay =>
      match l.reclaim? labels stay with
      | none => l.acquireBySweep labels file page
      | some (l, left) => l.place labels file page stay.frame (some (.written left))

/-- Gives back one pin of a page, and says where it was and how many pins are left. A page that is
not resident has no pins, and nothing is wrong with that. -/
def unpinPage (labels : Labels) (l : Ledger) (file : FileNo) (page : PageNo) (dirty : Bool) :
    Ledger × Except PoolError (Option (FrameNo × Nat)) :=
  let key := labels.key file page
  match l.table.find? key with
  | none => (l, .ok none)
  | some i =>
    match l.occupant? i with
    | none => (l, .error (.inconsistent i (.mapsToEmpty key)))
    | some o =>
      match o.unpin? dirty with
      | none => (l, .error (.notPinned (labels file).name page i))
      | some o => (l.setOccupant i o, .ok (some (i, o.pins)))

def unpinStay (labels : Labels) (l : Ledger) (stay : Stay) (dirty : Bool) :
    Ledger × Except PoolError Unit :=
  match (l.frame stay.frame).occupantAt stay.generation with
  | none => (l, .error (.stale stay.frame))
  | some o =>
    match o.unpin? dirty with
    | none => (l, .error (.notPinned (labels o.file).name o.page stay.frame))
    | some o => (l.setOccupant stay.frame o, .ok ())

/-- Whether the page of a stay is still being loaded. A stay that is over, or whose pins are all
given back, has no page any more. -/
def stillLoading (l : Ledger) (stay : Stay) : Except PoolError Bool :=
  match (l.frame stay.frame).occupantAt stay.generation with
  | none => .error (.stale stay.frame)
  | some o => if o.pins = 0 then .error (.stale stay.frame) else .ok (o.io = .busy .load)

end Ledger

end SecondChance
