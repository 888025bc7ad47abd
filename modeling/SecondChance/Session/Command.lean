import SecondChance.Pool.Diagnostics
import SecondChance.Store.Catalog
import SecondChance.Task

/-!
The commands of a session and the answers to them.

Files and pools are named by the order in which they were made. Some commands may have to wait; what
they come to is then told later, under the number of the step at which they were given.
-/

namespace SecondChance

abbrev PoolNo := Nat

/-- A call to a page file that does not go through a pool. -/
inductive FileCall
  | read (file : FileNo) (page : PageNo) (buffer : Buffer)
  | write (file : FileNo) (page : PageNo) (buffer : Buffer)
  | allocate (file : FileNo)
  | delete (file : FileNo) (page : PageNo)
  | sync (file : FileNo)

def FileCall.target : FileCall → FileNo × CallKind
  | .read file _ _ => (file, .read)
  | .write file _ _ => (file, .write)
  | .allocate file => (file, .alloc)
  | .delete file _ => (file, .delete)
  | .sync file => (file, .sync)

inductive Complaint
  | noFile
  | noPool
  | noHandle
  | handleBusy
  | handleTaken
  | noTask
  | noHold
  | poolBusy
  deriving DecidableEq

/-- What can be asked of a session. -/
inductive Command
  | openMemory (name : String) (limit : Option Nat) (pages : Nat)
  | openDisk (path : String) (pages : Nat)
  | forgetFile (file : FileNo)
  | pageCount (file : FileNo)
  | call (c : FileCall)
  /-- All pages of a file, read without regard to gates and faults. -/
  | dump (file : FileNo)
  | driveWrite (path : String) (off len : Nat) (fill : UInt8)
  | driveResize (path : String) (len : Nat)
  | driveRead (path : String)
  /-- From now on calls of a kind wait. -/
  | closeGate (file : FileNo) (kind : CallKind)
  /-- Calls of a kind wait no longer. -/
  | openGate (file : FileNo) (kind : CallKind)
  /-- The next calls of a kind meet these faults, one each, after those already planned. -/
  | plan (file : FileNo) (kind : CallKind) (faults : List (Option Fault))
  /-- A file reports the identity of another one, or a fresh one. -/
  | setId (file : FileNo) (like : Option FileNo)
  | newPool (c : Config)
  | fetch (pool : PoolNo) (file : FileNo) (page : PageNo) (handle : HandleNo)
  | allocate (pool : PoolNo) (file : FileNo) (handle : HandleNo)
  /-- Uses a page on loan; with a hold, only after the hold is ended. -/
  | access (handle : HandleNo) (purpose : Access) (hold : Option String)
  | markDirty (handle : HandleNo)
  | info (handle : HandleNo)
  | release (handle : HandleNo)
  | drop (handle : HandleNo)
  | detach (handle : HandleNo)
  | unpin (pool : PoolNo) (file : FileNo) (page : PageNo) (dirty : Bool)
  | dispose (pool : PoolNo) (file : FileNo) (page : PageNo)
  | flushFile (pool : PoolNo) (file : FileNo)
  | flushAll (pool : PoolNo)
  | close (pool : PoolNo)
  | dropPool (pool : PoolNo)
  | verify (pool : PoolNo)
  | resident (pool : PoolNo) (file : FileNo) (page : PageNo)
  | diagnostics (pool : PoolNo)
  | config (pool : PoolNo)
  | cancel (task : TaskId)
  | endHold (hold : String)
  | nothing

inductive Answer
  /-- It is done, and there is nothing to tell. -/
  | done
  /-- It has to wait. -/
  | pending
  | complaint (c : Complaint)
  | storeRefused (error : StoreError)
  | poolRefused (error : PoolError)
  | opened (file : FileNo) (id : FileId) (made : Nat)
  | count (n : Nat)
  | page (n : PageNo)
  | bytes (content : Bytes)
  | dump (pages : List (Except StoreError Page))
  | contents (content : Bytes)
  | id (id : FileId)
  | lent (page : PageNo) (frame : FrameNo)
  | info (handle : Handle) (name : String)
  | resident (snapshot : Option Snapshot)
  | diagnostics (d : Diagnostics)
  | config (c : Config)

def Answer.ofResult : Result → Answer
  | .done => .done
  | .lent n i => .lent n i
  | .content p => .bytes p.toArray
  | .refused e => .poolRefused e

def Answer.ofPool : Except PoolError Unit → Answer
  | .ok () => .done
  | .error e => .poolRefused e

def Answer.ofStore {α : Type} (value : α → Answer) : Except StoreError α → Answer
  | .ok a => value a
  | .error e => .storeRefused e

def FileCall.perform (c : Catalog) (fault : Option Fault) : FileCall → Catalog × Answer
  | .read file page buffer =>
    let (c, r) := c.read fault file page buffer
    (c, .ofStore (fun p => .bytes p.toArray) r)
  | .write file page buffer =>
    let (c, r) := c.write fault file page buffer
    (c, .ofStore (fun () => .done) r)
  | .allocate file =>
    let (c, r) := c.allocate fault file
    (c, .ofStore .page r)
  | .delete file page =>
    let (c, r) := c.delete fault file page
    (c, .ofStore (fun () => .done) r)
  | .sync file =>
    let (c, r) := c.sync fault file
    (c, .ofStore (fun () => .done) r)

end SecondChance
