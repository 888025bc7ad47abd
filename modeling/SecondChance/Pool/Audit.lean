import SecondChance.Pool.Ledger
import SecondChance.Error

/-!
The audit of a ledger: do its two accounts of which page is where agree?

Every occupied frame has to be what the table has for its page, and every entry of the table has to
lead to a frame that holds the page. The frames are gone through first, in their order.
-/

namespace SecondChance.Ledger

def auditFrame (labels : Labels) (l : Ledger) (i : FrameNo) : Except PoolError Unit :=
  match l.occupant? i with
  | none => .ok ()
  | some o =>
    let found := l.table.find? (o.key labels)
    if found = some i then .ok ()
    else .error (.inconsistent i (.tableHas o.page (labels o.file).name found))

def auditEntry (labels : Labels) (l : Ledger) (entry : PageKey × FrameNo) :
    Except PoolError Unit :=
  let held := (l.occupant? entry.2).map (·.key labels)
  if held = some entry.1 then .ok ()
  else .error (.inconsistent entry.2 (.frameHolds entry.1 held))

/-- The first disagreement, if there is one. -/
def audit (labels : Labels) (l : Ledger) : Except PoolError Unit := do
  (List.range l.size).forM (l.auditFrame labels)
  l.table.entries.forM (l.auditEntry labels)

end SecondChance.Ledger
