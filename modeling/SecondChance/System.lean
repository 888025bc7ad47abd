import SecondChance.Event
import SecondChance.Store.Catalog
import SecondChance.Task

/-!
A pool at work: the pool, the page files behind it, the pages it has lent out and the operations in
progress.

`begin` starts an operation, `resume` takes one operation a single step further, and `cancel` gives
one up wherever it stands. Between two steps anything may happen, so what holds after every step
holds under every interleaving. A step that calls a page file is told which fault the call meets.
Each function returns the events that it reports, oldest first.
-/

namespace SecondChance

/-- A pool with its borrowers and its operations in progress. -/
structure Site where
  pool : Pool
  handles : Table HandleNo Handle
  tasks : Table TaskId Task

/-- A pool at work on the files of a catalogue. -/
structure System extends Site where
  files : Catalog

/-- What can be asked of a pool and may take more than one step. -/
inductive Operation
  | fetch (file : FileNo) (page : PageNo) (handle : HandleNo)
  | allocate (file : FileNo) (handle : HandleNo)
  | dispose (file : FileNo) (page : PageNo)
  | flushFile (file : FileNo)
  | flushAll
  /-- Using a page on loan under the given handle and stay. -/
  | access (handle : HandleNo) (stay : Stay) (purpose : Access)

/-- Where a task stands after a step. -/
inductive Turn
  | goesOn (task : Task)
  | ends (result : Result)

def Site.new (p : Pool) : Site := ⟨p, .empty, .empty⟩

def Site.isIdle (s : Site) : Bool := s.handles.entries.isEmpty && s.tasks.entries.isEmpty

/-- What a pool reports when it is given up with pages that were never written back. -/
def Site.farewell (s : Site) : List Event :=
  let dirty := s.pool.ledger.dirtyCount
  if dirty = 0 then [] else [.droppedDirty dirty]

namespace System

def new (n : Nat) (c : Catalog) : System := { toSite := .new (.new n), files := c }

def labels (s : System) : Labels := s.files.labels

def name (s : System) (f : FileNo) : String := (s.labels f).name

def setLedger (s : System) (l : Ledger) : System := { s with pool := { s.pool with ledger := l } }

/-! ### Transfers -/

/-- A transfer that has just been claimed goes on by asking for the latch that it needs. -/
def startTransfer (s : System) (t : TaskId) (x : Transfer) : System × Stage :=
  ({ s with pool := s.pool.request x.stay.frame t x.mode }, .move x)

/-- Reads the page of a load into its frame. A failed read leaves zeros. -/
def finishLoad (s : System) (t : TaskId) (stay : Stay) (fault : Option Fault) :
    System × List Event × Except StoreError Unit :=
  let (files, r) :=
    s.files.read fault stay.file stay.page (.page (s.pool.buffer stay.frame))
  let pool := s.pool.setBuffer stay.frame (match r with | .ok page => page | .error _ => .zero)
  let pool := pool.settle files.labels ⟨.load, stay⟩ r.isOk
  let s := { s with pool := pool.leave stay.frame t, files := files }
  match r with
  | .ok _ => (s, [], .ok ())
  | .error e => (s, [.readFailed (s.name stay.file) stay.page e], .error e)

def finishWriteBack (s : System) (t : TaskId) (stay : Stay) (fault : Option Fault) :
    System × List Event × Except StoreError Unit :=
  let (files, r) := s.files.write fault stay.file stay.page (.page (s.pool.buffer stay.frame))
  let pool := s.pool.settle files.labels ⟨.writeBack, stay⟩ r.isOk
  let s := { s with pool := pool.leave stay.frame t, files := files }
  match r with
  | .ok () => (s, [.wroteBack (s.name stay.file) stay.page stay.frame], .ok ())
  | .error e => (s, [], .error e)

/-- Makes the call of a transfer whose latch is had, settles the transfer and gives up the latch. -/
def finishTransfer (s : System) (t : TaskId) (x : Transfer) (fault : Option Fault) :
    System × List Event × Except StoreError Unit :=
  match x.kind with
  | .load => s.finishLoad t x.stay fault
  | .writeBack => s.finishWriteBack t x.stay fault

/-! ### Handles -/

def lend (s : System) (h : HandleNo) (stay : Stay) : System × Turn :=
  ({ s with handles := s.handles.insert h ⟨stay, false⟩ }, .ends (.lent stay.page stay.frame))

def markDirty (s : System) (h : HandleNo) : System :=
  { s with handles := s.handles.modify h fun x => { x with dirty := true } }

/-- Forgets a handle and keeps its pin. -/
def detach (s : System) (h : HandleNo) : System := { s with handles := s.handles.erase h }

def release (s : System) (h : HandleNo) : System × Except PoolError Unit :=
  match s.handles.find? h with
  | none => (s, .ok ())
  | some x =>
    let (ledger, r) := s.pool.ledger.unpinStay s.labels x.stay x.dirty
    ((s.detach h).setLedger ledger, r)

/-- Takes back a page on loan when nobody is there to hear of an error. -/
def drop (s : System) (h : HandleNo) : System × List Event :=
  match s.handles.find? h with
  | none => (s, [])
  | some x =>
    match s.release h with
    | (s, .ok ()) => (s, [])
    | (s, .error e) =>
      (s, [.unpinFailed (s.name x.stay.file) x.stay.page x.stay.frame e])

/-- Gives back a pin for which there is no handle. -/
def unpin (s : System) (file : FileNo) (page : PageNo) (dirty : Bool) :
    System × List Event × Except PoolError Unit :=
  match s.pool.ledger.unpinPage s.labels file page dirty with
  | (ledger, .error e) => (s.setLedger ledger, [], .error e)
  | (ledger, .ok none) => (s.setLedger ledger, [], .ok ())
  | (ledger, .ok (some (frame, pins))) =>
    (s.setLedger ledger, [.unpinned (s.name file) page frame pins dirty], .ok ())

/-! ### One step of each operation -/

def departure (frame : FrameNo) : Option Departure → List Event
  | none => []
  | some (.clean page) => [.leftClean frame page]
  | some (.written page) => [.leftWritten frame page]

def lookForFetch (s : System) (t : TaskId) (file : FileNo) (page : PageNo) (h : HandleNo)
    (written : Option Stay) : System × List Event × Turn :=
  match s.pool.ledger.acquire s.labels file page written with
  | (ledger, .error e) => (s.setLedger ledger, [], .ends (.refused e))
  | (ledger, .ok (.hit stay pins)) =>
    let (s, turn) := (s.setLedger ledger).lend h stay
    (s, [.hit (s.name file) page stay.frame pins], turn)
  | (ledger, .ok (.load stay departed)) =>
    let (s, stage) := (s.setLedger ledger).startTransfer t ⟨.load, stay⟩
    (s, departure stay.frame departed ++ [.miss (s.name file) page stay.frame],
      .goesOn (.fetch file page h none stage))
  | (ledger, .ok (.writeBack stay)) =>
    let (s, stage) := (s.setLedger ledger).startTransfer t ⟨.writeBack, stay⟩
    (s, [], .goesOn (.fetch file page h none stage))
  | (ledger, .ok (.wait frame)) =>
    let s := s.setLedger ledger
    (s, [.waiting frame], .goesOn (.fetch file page h none (.look (some (s.pool.ticket frame)))))

def moveForFetch (s : System) (t : TaskId) (file : FileNo) (page : PageNo) (h : HandleNo)
    (x : Transfer) (fault : Option Fault) : System × List Event × Turn :=
  match s.finishTransfer t x fault, x.kind with
  | (s, events, .error e), _ => (s, events, .ends (.refused (.store e)))
  | (s, events, .ok ()), .writeBack =>
    (s, events, .goesOn (.fetch file page h (some x.stay) (.look none)))
  | (s, events, .ok ()), .load =>
    let (s, turn) := s.lend h x.stay
    (s, events, turn)

def lookForExpel (s : System) (file : FileNo) (page : PageNo) (key : PageKey) :
    System × List Event × Turn :=
  match s.pool.ledger.expel key (s.name file) page with
  | (ledger, .error e) => (s.setLedger ledger, [], .ends (.refused e))
  | (ledger, .ok none) => (s.setLedger ledger, [], .goesOn (.delete file page))
  | (ledger, .ok (some frame)) =>
    let s := s.setLedger ledger
    (s, [], .goesOn (.expel file page key (some (s.pool.ticket frame))))

/-- A flush of one file looks at one frame. Behind the last frame it syncs the file if it has
written to it. -/
def lookForFlushFile (s : System) (t : TaskId) (file : FileNo) (frame : FrameNo) (written : Nat) :
    System × List Event × Turn :=
  if frame < s.pool.size then
    match s.pool.ledger.flushFileAt s.labels frame (s.labels file).id with
    | (ledger, .error e) => (s.setLedger ledger, [], .ends (.refused e))
    | (ledger, .ok .done) =>
      (s.setLedger ledger, [], .goesOn (.flushFile file (frame + 1) written (.look none)))
    | (ledger, .ok (.wait i)) =>
      let s := s.setLedger ledger
      (s, [], .goesOn (.flushFile file frame written (.look (some (s.pool.ticket i)))))
    | (ledger, .ok (.writeBack stay)) =>
      let (s, stage) := (s.setLedger ledger).startTransfer t ⟨.writeBack, stay⟩
      (s, [], .goesOn (.flushFile file frame written stage))
  else if written = 0 then
    (s, [.flushedFile (s.name file) written], .ends .done)
  else
    (s, [], .goesOn (.syncFile file written))

/-- A flush of everything looks at one frame. Behind the last frame it syncs the files it has
written to. -/
def lookForFlushAll (s : System) (t : TaskId) (frame : FrameNo) (files : List FileNo) :
    System × List Event × Turn :=
  if frame < s.pool.size then
    match s.pool.ledger.flushAllAt frame with
    | (ledger, .done) =>
      (s.setLedger ledger, [], .goesOn (.flushAll (frame + 1) files (.look none)))
    | (ledger, .wait i) =>
      let s := s.setLedger ledger
      (s, [], .goesOn (.flushAll frame files (.look (some (s.pool.ticket i)))))
    | (ledger, .writeBack stay) =>
      let (s, stage) := (s.setLedger ledger).startTransfer t ⟨.writeBack, stay⟩
      (s, [], .goesOn (.flushAll frame files stage))
  else
    (s, [], .goesOn (.syncAll files.length files))

/-- The files written to with one more, unless one of them reports the same identity. -/
def alsoWritten (labels : Labels) (files : List FileNo) (f : FileNo) : List FileNo :=
  if files.any fun g => (labels g).id = (labels f).id then files else files ++ [f]

/-- A borrower who has the latch makes sure that the page is still the right one. Whoever is going
to write notes at once that the page will come back dirty. -/
def enter (s : System) (t : TaskId) (h : HandleNo) (stay : Stay) (purpose : Access) :
    System × List Event × Turn :=
  match s.pool.ledger.stillLoading stay with
  | .error e =>
    ({ s with pool := s.pool.leave stay.frame t }, [], .ends (.refused e))
  | .ok true =>
    let s := { s with pool := s.pool.leave stay.frame t }
    (s, [], .goesOn (.access h stay purpose (.loading (s.pool.ticket stay.frame))))
  | .ok false =>
    let s := match purpose with | .read => s | .write _ => s.markDirty h
    (s, [], .goesOn (.access h stay purpose .inside))

def use (s : System) (t : TaskId) (stay : Stay) : Access → System × List Event × Turn
  | .read =>
    ({ s with pool := s.pool.leave stay.frame t }, [],
      .ends (.content (s.pool.buffer stay.frame)))
  | .write edit =>
    let pool := s.pool.setBuffer stay.frame (edit (s.pool.buffer stay.frame))
    ({ s with pool := pool.leave stay.frame t }, [], .ends .done)

def advance (s : System) (t : TaskId) (fault : Option Fault) : Task → System × List Event × Turn
  | .allocate file h =>
    match s.files.allocate fault file with
    | (files, .error e) => ({ s with files := files }, [], .ends (.refused (.store e)))
    | (files, .ok page) =>
      ({ s with files := files }, [.allocated (s.name file) page],
        .goesOn (.fetch file page h none (.look none)))
  | .fetch file page h written (.look _) => s.lookForFetch t file page h written
  | .fetch file page h _ (.move x) => s.moveForFetch t file page h x fault
  | .expel file page key _ => s.lookForExpel file page key
  | .delete file page =>
    match s.files.delete fault file page with
    | (files, .error e) => ({ s with files := files }, [], .ends (.refused (.store e)))
    | (files, .ok ()) =>
      ({ s with files := files }, [.disposed (s.name file) page], .ends .done)
  | .flushFile file frame written (.look _) => s.lookForFlushFile t file frame written
  | .flushFile file frame written (.move x) =>
    match s.finishTransfer t x fault with
    | (s, events, .error e) => (s, events, .ends (.refused (.store e)))
    | (s, events, .ok ()) =>
      (s, events, .goesOn (.flushFile file frame (written + 1) (.look none)))
  | .syncFile file written =>
    match s.files.sync fault file with
    | (files, .error e) => ({ s with files := files }, [], .ends (.refused (.store e)))
    | (files, .ok ()) =>
      ({ s with files := files }, [.flushedFile (s.name file) written], .ends .done)
  | .flushAll frame files (.look _) => s.lookForFlushAll t frame files
  | .flushAll frame files (.move x) =>
    match s.finishTransfer t x fault with
    | (s, events, .error e) => (s, events, .ends (.refused (.store e)))
    | (s, events, .ok ()) =>
      (s, events,
        .goesOn (.flushAll (frame + 1) (alsoWritten s.labels files x.stay.file) (.look none)))
  | .syncAll files [] => (s, [.flushedAll files], .ends .done)
  | .syncAll files (file :: remaining) =>
    match s.files.sync fault file with
    | (catalog, .error e) => ({ s with files := catalog }, [], .ends (.refused (.store e)))
    | (catalog, .ok ()) => ({ s with files := catalog }, [], .goesOn (.syncAll files remaining))
  | .access h stay purpose .latching => s.enter t h stay purpose
  | .access h stay purpose (.loading _) =>
    ({ s with pool := s.pool.request stay.frame t purpose.mode }, [],
      .goesOn (.access h stay purpose .latching))
  | .access _ stay purpose .inside => s.use t stay purpose

/-! ### The operations in progress -/

def firstTask (labels : Labels) : Operation → Task
  | .fetch file page h => .fetch file page h none (.look none)
  | .allocate file h => .allocate file h
  | .dispose file page => .expel file page (labels.key file page) none
  | .flushFile file => .flushFile file 0 0 (.look none)
  | .flushAll => .flushAll 0 [] (.look none)
  | .access h stay purpose => .access h stay purpose .latching

/-- Starts an operation as task number `t`. Using a page on loan begins with asking for its
latch. -/
def begin (s : System) (t : TaskId) (o : Operation) : System :=
  let s := { s with tasks := s.tasks.insert t (firstTask s.labels o) }
  match o with
  | .access _ stay purpose => { s with pool := s.pool.request stay.frame t purpose.mode }
  | _ => s

def isReady (s : System) (t : TaskId) : Bool :=
  (s.tasks.find? t).any (·.isReady s.pool t)

/-- Takes a task one step further. The result is there once the task has ended. -/
def resume (s : System) (t : TaskId) (fault : Option Fault) :
    System × List Event × Option Result :=
  match s.tasks.find? t with
  | none => (s, [], none)
  | some task =>
    match s.advance t fault task with
    | (s, events, .goesOn task) =>
      ({ s with tasks := s.tasks.insert t task }, events, none)
    | (s, events, .ends result) => ({ s with tasks := s.tasks.erase t }, events, some result)

/-- Gives up a task. Its latch or place in the queue is given up, a transfer under way fails, and a
page that the task was using is given back. -/
def cancel (s : System) (t : TaskId) : System × List Event :=
  match s.tasks.find? t with
  | none => (s, [])
  | some task =>
    let s := { s with tasks := s.tasks.erase t }
    let s := match task.latch? with
      | some (frame, _) => { s with pool := s.pool.leave frame t }
      | none => s
    match task with
    | .access h _ _ _ => s.drop h
    | _ =>
      match task.transfer? with
      | some x =>
        ({ s with pool := s.pool.settle s.labels x false }, [.abandoned x.stay.frame x.kind])
      | none => (s, [])

/-- Goes on with a task for at most so many steps, as long as it is ready, without any fault. -/
def run : (steps : Nat) → System → TaskId → System × List Event × Option Result
  | 0, s, _ => (s, [], none)
  | steps + 1, s, t =>
    if s.isReady t then
      match s.resume t none with
      | (s, events, some result) => (s, events, some result)
      | (s, events, none) =>
        let (s, more, result) := run steps s t
        (s, events ++ more, result)
    else (s, [], none)

/-- More steps than any operation takes that has the pool to itself: at most three for a frame, and
a few more at its beginning and end. -/
def ampleSteps (s : System) : Nat := 4 * s.pool.size + 16

end System

end SecondChance
