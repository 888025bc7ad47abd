import SecondChance.Proofs.Ledger.Decisions
import SecondChance.Proofs.System.Run

/-!
The acts of which all moves are made.

A move may do several things at once: the hand passes, a page leaves its frame, another comes in,
and a task turns from looking to loading. An `Act` is one of these things, together with everything
that was made sure of before. Which acts a move is made of is settled in
`SecondChance.Proofs.System.MoveDecomposition`; everything that is to hold in all runs has then to
be checked act by act, and not for each operation anew.

Latches are not looked at closely here. An act may change them in any way, because nothing that is
proved of acts relies on them.
-/

namespace SecondChance

namespace Task

/-- The handle of the page on loan that the task uses, if it uses one. -/
def borrower? : Task → Option HandleNo
  | .access h _ _ _ => some h
  | _ => none

def filling? : Task → Option HandleNo
  | .allocate _ h | .fetch _ _ h _ _ => some h
  | _ => none

def target? : Task → Option FileNo
  | .allocate file _ | .fetch file _ _ _ _ => some file
  | _ => none

/-- A task that neither moves a page nor uses one. -/
structure IsPlain (task : Task) : Prop where
  transfer? : task.transfer? = none
  borrower? : task.borrower? = none

/-- What is true of every task whatever happens: it expels a page under the key of that page, and
flushing means writing. -/
def IsProper (labels : Labels) : Task → Prop
  | .expel file page key _ => key = labels.key file page
  | .flushFile _ _ _ (.move x) | .flushAll _ _ (.move x) => x.kind = .writeBack
  | _ => True

def isDisposal : Task → Bool
  | .expel .. | .delete .. => true
  | _ => false

def opening (task : Task) : List Mark := if task.isDisposal then [.disposing] else []

/-- What a task goes on as: it will fill the same handle, with a page of the same file. -/
structure Follows (labels : Labels) (task task' : Task) : Prop where
  proper : task'.IsProper labels
  target? : task'.target? = task.target?
  filling? : task'.filling? = task.filling?
  isDisposal : task'.isDisposal = task.isDisposal

end Task

namespace System

def setTask (s : System) (t : TaskId) (task : Task) : System :=
  { s with tasks := s.tasks.insert t task }

def endTask (s : System) (t : TaskId) : System := { s with tasks := s.tasks.erase t }

def setFiles (s : System) (c : Catalog) : System := { s with files := c }

def setPool (s : System) (p : Pool) : System := { s with pool := p }

def setLatches (s : System) (latches : Array Latch) : System :=
  { s with pool := { s.pool with latches := latches } }

def lendTo (s : System) (h : HandleNo) (stay : Stay) : System :=
  { s with handles := s.handles.insert h ⟨stay, false⟩ }

/-- One of the things of which moves are made. -/
inductive Act (s : System) : List Mark → System → Prop
  | ease {l : Ledger} (h : s.pool.ledger.Eased s.labels l) : Act s [] (s.setLedger l)
  | expel {t : TaskId} {file : FileNo} {page : PageNo} {key : PageKey} {look : Option Ticket}
      {i : FrameNo} {o : Occupant} (ht : s.tasks.find? t = some (.expel file page key look))
      (hk : s.pool.ledger.table.find? key = some i) (ho : s.pool.ledger.occupant? i = some o)
      (hs : o.standing = .available) :
      Act s [.expelled key] (s.setLedger (s.pool.ledger.vacate i key))
  | latch (latches : Array Latch) : Act s [] (s.setLatches latches)
  -- Tasks that neither move nor use a page.
  | start {t : TaskId} {task : Task} (ht : s.tasks.find? t = none) (hp : task.IsPlain)
      (hv : task.IsProper s.labels) (hf : ∀ f, task.target? = some f → s.hasFile f)
      (hh : ∀ h, task.filling? = some h → s.handles.find? h = none ∧ s.IsUnused h) :
      Act s task.opening (s.setTask t task)
  | turn {t : TaskId} {task task' : Task} (ht : s.tasks.find? t = some task) (hp : task.IsPlain)
      (hp' : task'.IsPlain) (hn : task.Follows s.labels task') : Act s [] (s.setTask t task')
  | stop {t : TaskId} {task : Task} (ht : s.tasks.find? t = some task) (hp : task.IsPlain) :
      Act s [] (s.endTask t)
  -- Fetching.
  | hit {t : TaskId} {file : FileNo} {page : PageNo} {h : HandleNo} {w : Option Stay}
      {look : Option Ticket} {i : FrameNo} {o : Occupant}
      (ht : s.tasks.find? t = some (.fetch file page h w (.look look)))
      (hk : s.pool.ledger.table.find? (s.labels.key file page) = some i)
      (ho : s.pool.ledger.occupant? i = some o) :
      Act s [] (((s.setLedger (s.pool.ledger.setOccupant i o.pin)).lendTo h
        ⟨file, page, i, s.pool.ledger.generation i⟩).endTask t)
  | install {t : TaskId} {file : FileNo} {page : PageNo} {h : HandleNo} {w : Option Stay}
      {look : Option Ticket} {i : FrameNo}
      (ht : s.tasks.find? t = some (.fetch file page h w (.look look)))
      (hk : s.pool.ledger.table.find? (s.labels.key file page) = none)
      (hi : i < s.pool.ledger.size) (ho : s.pool.ledger.occupant? i = none) :
      Act s [] ((s.setLedger (s.pool.ledger.install i (s.labels.key file page) file page)).setTask t
        (.fetch file page h none
          (.move ⟨.load, ⟨file, page, i, s.pool.ledger.generation i + 1⟩⟩)))
  -- Transfers.
  | claim {t : TaskId} {task task' : Task} {i : FrameNo} {o : Occupant}
      (ht : s.tasks.find? t = some task) (hp : task.IsPlain)
      (ho : s.pool.ledger.occupant? i = some o) (hio : o.io = .idle) (hd : o.dirty = true)
      (hx : task'.transfer? = some ⟨.writeBack, s.pool.ledger.stayOf i o⟩)
      (hn : task.Follows s.labels task') :
      Act s [] ((s.setLedger (s.pool.ledger.setOccupant i o.claimed)).setTask t task')
  | fill {t : TaskId} {stay : Stay} (hx : s.transferOf t = some ⟨.load, stay⟩) (content : Page) :
      Act s [] (s.setPool (s.pool.setBuffer stay.frame content))
  | loaded {t : TaskId} {file : FileNo} {page : PageNo} {h : HandleNo} {w : Option Stay}
      {stay : Stay} {fault : Option Fault} {files : Catalog} {content : Page}
      (ht : s.tasks.find? t = some (.fetch file page h w (.move ⟨.load, stay⟩)))
      (hr : s.files.read fault stay.file stay.page (.page (s.pool.buffer stay.frame)) =
        (files, .ok content)) :
      Act s (if Fault.cuts fault then [.cutShort stay] else [])
        ((((s.setFiles files).setPool ((s.pool.setBuffer stay.frame content).settle s.labels
          ⟨.load, stay⟩ true)).lendTo h stay).endTask t)
  | lost {t : TaskId} {task : Task} {stay : Stay} (ht : s.tasks.find? t = some task)
      (hx : task.transfer? = some ⟨.load, stay⟩) :
      Act s [.lost stay] ((s.setPool (s.pool.settle s.labels ⟨.load, stay⟩ false)).endTask t)
  | wrote {t : TaskId} {task task' : Task} {stay : Stay} {fault : Option Fault} {files : Catalog}
      (ht : s.tasks.find? t = some task) (hx : task.transfer? = some ⟨.writeBack, stay⟩)
      (hr : s.files.write fault stay.file stay.page (.page (s.pool.buffer stay.frame)) =
        (files, .ok ()))
      (hp : task'.IsPlain) (hn : task.Follows s.labels task') :
      Act s [] (((s.setFiles files).setPool (s.pool.settle s.labels ⟨.writeBack, stay⟩
        true)).setTask t task')
  | unwritten {t : TaskId} {task : Task} {stay : Stay} (ht : s.tasks.find? t = some task)
      (hx : task.transfer? = some ⟨.writeBack, stay⟩) :
      Act s [] ((s.setPool (s.pool.settle s.labels ⟨.writeBack, stay⟩ false)).endTask t)
  -- Calls of page files.
  | read (fault : Option Fault) (f : FileNo) (n : PageNo) (content : Page) :
      Act s [] (s.setFiles (s.files.read fault f n (.page content)).1)
  | write {t : TaskId} {stay : Stay} (hx : s.transferOf t = some ⟨.writeBack, stay⟩)
      (fault : Option Fault) :
      Act s [] (s.setFiles
        (s.files.write fault stay.file stay.page (.page (s.pool.buffer stay.frame))).1)
  | allocate {t : TaskId} {file : FileNo} {h : HandleNo}
      (ht : s.tasks.find? t = some (.allocate file h)) (fault : Option Fault) :
      Act s [.allocating file (s.files.allocate none file).2.toOption]
        (s.setFiles (s.files.allocate fault file).1)
  | delete {t : TaskId} {file : FileNo} {page : PageNo}
      (ht : s.tasks.find? t = some (.delete file page)) (fault : Option Fault) :
      Act s [] (s.setFiles (s.files.delete fault file page).1)
  | sync (fault : Option Fault) (f : FileNo) : Act s [] (s.setFiles (s.files.sync fault f).1)
  -- Pages on loan.
  | borrow {t : TaskId} {h : HandleNo} {stay : Stay} {d : Bool} (purpose : Access)
      (ht : s.tasks.find? t = none) (hh : s.handles.find? h = some ⟨stay, d⟩) :
      Act s [] (s.setTask t (.access h stay purpose .latching))
  | queue {t : TaskId} {h : HandleNo} {stay : Stay} {purpose : Access} {stage stage' : AccessStage}
      (ht : s.tasks.find? t = some (.access h stay purpose stage)) (hs : stage' ≠ .inside) :
      Act s [] (s.setTask t (.access h stay purpose stage'))
  | enter {t : TaskId} {h : HandleNo} {stay : Stay} {purpose : Access} {stage : AccessStage}
      (ht : s.tasks.find? t = some (.access h stay purpose stage))
      (hl : s.pool.ledger.stillLoading stay = .ok false) :
      Act s [] ((match purpose with | .read => s | .write _ => s.markDirty h).setTask t
        (.access h stay purpose .inside))
  | edit {t : TaskId} {h : HandleNo} {stay : Stay} {e₀ : Page → Page}
      (ht : s.tasks.find? t = some (.access h stay (.write e₀) .inside)) (e : Page → Page) :
      Act s [.edited stay e]
        (s.setPool (s.pool.setBuffer stay.frame (e (s.pool.buffer stay.frame))))
  | quit {t : TaskId} {h : HandleNo} {stay : Stay} {purpose : Access} {stage : AccessStage}
      (ht : s.tasks.find? t = some (.access h stay purpose stage)) : Act s [] (s.endTask t)
  -- Handles.
  | giveBack {h : HandleNo} {x : Handle} {l : Ledger} {r : Except PoolError Unit}
      (hh : s.handles.find? h = some x) (hu : s.IsUnused h)
      (hr : s.pool.ledger.unpinStay s.labels x.stay x.dirty = (l, r)) :
      Act s [] ((s.detach h).setLedger l)
  | detach {h : HandleNo} {x : Handle} (hh : s.handles.find? h = some x) (hu : s.IsUnused h) :
      Act s [.detached x.stay] (s.detach h)
  | markDirty (h : HandleNo) : Act s [] (s.markDirty h)
  | unpin {file : FileNo} {page : PageNo} {dirty : Bool} {l : Ledger}
      {r : Except PoolError (Option (FrameNo × Nat))}
      (hr : s.pool.ledger.unpinPage s.labels file page dirty = (l, r)) :
      Act s [.unpinned] (s.setLedger l)

/-- Several acts, one after the other. -/
inductive Acts : System → List Mark → System → Prop
  | done (s : System) : Acts s [] s
  | more {s s' s'' : System} {ks ks' : List Mark} (first : Act s ks s') (rest : Acts s' ks' s'') :
      Acts s (ks ++ ks') s''

theorem Acts.one {s s' : System} {ks : List Mark} (a : Act s ks s') : Acts s ks s' := by
  simpa using Acts.more a (.done s')

theorem Acts.cons {s s' s'' : System} {ks : List Mark} (a : Act s [] s') (b : Acts s' ks s'') :
    Acts s ks s'' := Acts.more a b

theorem Acts.mark {s s' s'' : System} {ks : List Mark} (a : Act s ks s') (b : Acts s' [] s'') :
    Acts s ks s'' := by
  simpa using Acts.more a b

/-- A property of the system and the marks so far that every act keeps is kept by several acts. -/
theorem Acts.preserve {P : List Mark → System → Prop} {ok : Mark → Prop}
    (hP : ∀ {s s' : System} {ks k : List Mark}, P ks s → (∀ x ∈ k, ok x) → Act s k s' →
      P (ks ++ k) s')
    {s s' : System} {ks k : List Mark} (a : Acts s k s') (hok : ∀ x ∈ k, ok x) (h : P ks s) :
    P (ks ++ k) s' := by
  induction a generalizing ks with
  | done s => simpa using h
  | more first rest ih =>
    have h' := hP h (fun x hx => hok x (List.mem_append_left _ hx)) first
    have h'' := ih (fun x hx => hok x (List.mem_append_right _ hx)) h'
    rwa [List.append_assoc] at h''

end System

end SecondChance
