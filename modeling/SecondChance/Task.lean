import SecondChance.Error
import SecondChance.Pool.Basic
import SecondChance.Store.Fault

/-!
Operations in progress.

An operation on a pool takes several steps, and other operations may take theirs in between. A
`Task` says how far one operation has come: what it will do when it goes on, and what it waits for
before that. It can wait for a ticket to be called, for the latch of a frame, or for the page file
that it is about to call; these are read off a task by `ticket?`, `latch?` and `call?`, so that
waiting is explained once and not for every operation anew.
-/

namespace SecondChance

abbrev HandleNo := Nat

/-- A page on loan: the stay in which it was lent, and whether it will come back dirty. -/
structure Handle where
  stay : Stay
  dirty : Bool
  deriving DecidableEq

def Handle.outline (h : Handle) (name : String) : String :=
  "PageHandle \x7b file: " ++ Text.quoted name
    ++ s!", page_no: {PageNo.outline h.stay.page}, frame_id: {FrameNo.outline h.stay.frame}"
    ++ s!", dirty: {h.dirty} \x7d"

/-- What the borrower of a page does with its content. -/
inductive Access
  | read
  | write (edit : Page → Page)

def Access.mode : Access → Latch.Mode
  | .read => .shared
  | .write _ => .exclusive

/-- A load has the latch of its frame alone; a write-back only keeps writers away. -/
def Transfer.mode (t : Transfer) : Latch.Mode :=
  match t.kind with
  | .load => .exclusive
  | .writeBack => .shared

def Transfer.call (t : Transfer) : CallKind :=
  match t.kind with
  | .load => .read
  | .writeBack => .write

/-- How far an operation has come that deals with one frame after the other. -/
inductive Stage
  /-- It will look at the ledger, once the ticket is called if it has one. -/
  | look (after : Option Ticket)
  /-- It has a transfer under way, and waits for the latch or has it and calls the file. -/
  | move (transfer : Transfer)

/-- How far reading or writing a page on loan has come. -/
inductive AccessStage
  /-- Waiting for the latch. -/
  | latching
  /-- The page was still being loaded; waiting for the end of that without the latch. -/
  | loading (after : Ticket)
  /-- The latch is had and the page is the right one; its content may be used. -/
  | inside

/-- An operation in progress. -/
inductive Task
  /-- About to allocate a page in a file and then to fetch it. -/
  | allocate (file : FileNo) (handle : HandleNo)
  /-- Fetching a page. A page written back to make room is remembered until the next look. -/
  | fetch (file : FileNo) (page : PageNo) (handle : HandleNo) (written : Option Stay)
      (stage : Stage)
  /-- Taking a page out of the pool in order to delete it. -/
  | expel (file : FileNo) (page : PageNo) (key : PageKey) (after : Option Ticket)
  /-- About to delete a page that is not resident any more. -/
  | delete (file : FileNo) (page : PageNo)
  /-- Flushing a file, at one of the frames and with some pages written already. -/
  | flushFile (file : FileNo) (frame : FrameNo) (written : Nat) (stage : Stage)
  /-- About to sync a flushed file. -/
  | syncFile (file : FileNo) (written : Nat)
  /-- Flushing everything, at one of the frames and with some files written to already. -/
  | flushAll (frame : FrameNo) (files : List FileNo) (stage : Stage)
  /-- About to sync the remaining ones of so many files. -/
  | syncAll (files : Nat) (remaining : List FileNo)
  /-- Using the content of a page on loan. -/
  | access (handle : HandleNo) (stay : Stay) (purpose : Access) (stage : AccessStage)

inductive Result
  /-- It is done, and there is nothing to tell. -/
  | done
  /-- A page has been lent out. -/
  | lent (page : PageNo) (frame : FrameNo)
  /-- The content of a page. -/
  | content (page : Page)
  | refused (error : PoolError)

namespace Stage

def ticket? : Stage → Option Ticket
  | .look after => after
  | .move _ => none

def transfer? : Stage → Option Transfer
  | .look _ => none
  | .move t => some t

end Stage

namespace Task

def ticket? : Task → Option Ticket
  | .fetch _ _ _ _ stage | .flushFile _ _ _ stage | .flushAll _ _ stage => stage.ticket?
  | .expel _ _ _ after => after
  | .access _ _ _ (.loading after) => some after
  | _ => none

def transfer? : Task → Option Transfer
  | .fetch _ _ _ _ stage | .flushFile _ _ _ stage | .flushAll _ _ stage => stage.transfer?
  | _ => none

def latch? (task : Task) : Option (FrameNo × Latch.Mode) :=
  match task with
  | .access _ _ _ (.loading _) => none
  | .access _ stay purpose _ => some (stay.frame, purpose.mode)
  | _ => task.transfer?.map fun t => (t.stay.frame, t.mode)

def call? : Task → Option (FileNo × CallKind)
  | .allocate file _ => some (file, .alloc)
  | .delete file _ => some (file, .delete)
  | .syncFile file _ | .syncAll _ (file :: _) => some (file, .sync)
  | task => task.transfer?.map fun t => (t.stay.file, t.call)

/-- The handle that the task will fill, or the one it uses. -/
def handle? : Task → Option HandleNo
  | .allocate _ h | .fetch _ _ h _ _ | .access h _ _ _ => some h
  | _ => none

def isReady (p : Pool) (t : TaskId) (task : Task) : Bool :=
  task.ticket?.all p.isCalled && task.latch?.all fun (frame, _) => (p.latch frame).isHeldBy t

end Task

end SecondChance
