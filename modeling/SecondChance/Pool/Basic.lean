import SecondChance.Limits
import SecondChance.Pool.Audit
import SecondChance.Pool.Flushing
import SecondChance.Pool.Latch
import SecondChance.Pool.Lending

/-!
A buffer pool: its ledger, and for every frame the content, a latch on the content, and the number
of transfers that have been settled there.

Whoever waits for the end of a transfer notes how many were settled when it began to wait, and goes
on as soon as there are more. Nothing that happens in between can be missed that way.
-/

namespace SecondChance

structure Pool where
  ledger : Ledger
  /-- The content of every frame. -/
  buffers : Array Page
  /-- The latch on the content of every frame. -/
  latches : Array Latch
  /-- How many transfers of every frame have been settled. -/
  settled : Array Nat

/-- What somebody holds who waits for a frame's transfer to be settled. -/
structure Ticket where
  frame : FrameNo
  /-- How many transfers were settled when the ticket was drawn. -/
  seen : Nat
  deriving DecidableEq

namespace Pool

def new (n : Nat) : Pool :=
  ⟨.new n, Array.replicate n .zero, Array.replicate n .free, Array.replicate n 0⟩

def ofConfig (c : Config) : Except Abort Pool := c.check.map fun _ => new c.frames

def size (p : Pool) : Nat := p.ledger.size

def buffer (p : Pool) (i : FrameNo) : Page := p.buffers[i]?.getD .zero

def latch (p : Pool) (i : FrameNo) : Latch := p.latches[i]?.getD .free

def settledAt (p : Pool) (i : FrameNo) : Nat := p.settled[i]?.getD 0

def setBuffer (p : Pool) (i : FrameNo) (page : Page) : Pool :=
  { p with buffers := p.buffers.setIfInBounds i page }

def request (p : Pool) (i : FrameNo) (t : TaskId) (mode : Latch.Mode) : Pool :=
  { p with latches := p.latches.modify i (·.request t mode) }

def leave (p : Pool) (i : FrameNo) (t : TaskId) : Pool :=
  { p with latches := p.latches.modify i (·.leave t) }

/-- The pool after a transfer has come to its end. Everybody who waits for that is woken. -/
def settle (labels : Labels) (p : Pool) (t : Transfer) (succeeded : Bool) : Pool :=
  { p with
    ledger := p.ledger.settle labels t succeeded
    settled := p.settled.modify t.stay.frame (· + 1) }

def ticket (p : Pool) (i : FrameNo) : Ticket := ⟨i, p.settledAt i⟩

/-- Whether a frame has been settled since the ticket was drawn. -/
def isCalled (p : Pool) (w : Ticket) : Bool := w.seen < p.settledAt w.frame

/-! ### Reading a changed pool -/

@[simp] theorem ledger_setBuffer (p : Pool) (i : FrameNo) (page : Page) :
    (p.setBuffer i page).ledger = p.ledger := rfl

@[simp] theorem latch_setBuffer (p : Pool) (i j : FrameNo) (page : Page) :
    (p.setBuffer i page).latch j = p.latch j := rfl

@[simp] theorem settledAt_setBuffer (p : Pool) (i j : FrameNo) (page : Page) :
    (p.setBuffer i page).settledAt j = p.settledAt j := rfl

theorem buffer_setBuffer (p : Pool) (i j : FrameNo) (page : Page) :
    (p.setBuffer i page).buffer j = if i = j ∧ i < p.buffers.size then page else p.buffer j := by
  simp only [buffer, setBuffer, Array.getElem?_setIfInBounds]
  by_cases h : i = j
  · subst h
    by_cases hi : i < p.buffers.size <;> simp [hi]
  · simp [h]

@[simp] theorem ledger_request (p : Pool) (i : FrameNo) (t : TaskId) (mode : Latch.Mode) :
    (p.request i t mode).ledger = p.ledger := rfl

@[simp] theorem buffer_request (p : Pool) (i j : FrameNo) (t : TaskId) (mode : Latch.Mode) :
    (p.request i t mode).buffer j = p.buffer j := rfl

@[simp] theorem ledger_leave (p : Pool) (i : FrameNo) (t : TaskId) :
    (p.leave i t).ledger = p.ledger := rfl

@[simp] theorem buffer_leave (p : Pool) (i j : FrameNo) (t : TaskId) :
    (p.leave i t).buffer j = p.buffer j := rfl

@[simp] theorem ledger_settle (labels : Labels) (p : Pool) (t : Transfer) (succeeded : Bool) :
    (p.settle labels t succeeded).ledger = p.ledger.settle labels t succeeded := rfl

@[simp] theorem buffer_settle (labels : Labels) (p : Pool) (t : Transfer) (succeeded : Bool)
    (j : FrameNo) : (p.settle labels t succeeded).buffer j = p.buffer j := rfl

end Pool

end SecondChance
