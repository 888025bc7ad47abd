import SecondChance.Store.Buffer

/-!
The ways in which a call to a page file can be made to go wrong.

A fault either refuses the call before anything is done, or lets it take effect and reports an error
all the same, or cuts short what a read delivers. Whoever makes a call says which fault it meets, if
any; a rule about every possible failure is then a rule about every choice of faults.
-/

namespace SecondChance

inductive CallKind
  | read
  | write
  | alloc
  | delete
  | sync
  deriving DecidableEq

/-- What happens to one call. -/
inductive Fault
  /-- Nothing is done; the system reports an error. -/
  | io (text : String)
  /-- Nothing is done; the file claims to be full. -/
  | full
  /-- Nothing is done; the file claims to be damaged. -/
  | corrupted (detail : String)
  /-- Nothing is done; the file claims not to have the page. -/
  | notFound
  /-- The call is carried out, and then the system reports an error. -/
  | lateIo (text : String)
  /-- A read delivers only the first bytes and leaves the rest of the buffer as it was. -/
  | short (bytes : Nat)
  deriving DecidableEq

/-- A call under a fault: `call` is what it would do undisturbed, to a state `σ`. -/
def Fault.disturb {σ α : Type} (fault : Option Fault) (name : String) (page : PageNo)
    (call : σ → σ × Except StoreError α) (s : σ) : σ × Except StoreError α :=
  match fault with
  | none => call s
  | some (.io text) => (s, .error (.io (.reported text)))
  | some .full => (s, .error .full)
  | some (.corrupted detail) => (s, .error (.corrupted detail))
  | some .notFound => (s, .error (.pageNotFound name page))
  | some (.lateIo text) =>
    match call s with
    | (s, .ok _) => (s, .error (.io (.reported text)))
    | refused => refused
  | some (.short _) => call s

/-- What a read leaves in a buffer if the page itself is `new`. -/
def Fault.delivered (fault : Option Fault) (buffer : Buffer) (new : Page) : Page :=
  match fault, buffer with
  | some (.short n), .page old => old.patch 0 (new.toList.take n)
  | _, _ => new

@[simp] theorem Fault.disturb_none {σ α : Type} (name : String) (page : PageNo)
    (call : σ → σ × Except StoreError α) (s : σ) :
    Fault.disturb none name page call s = call s := rfl

@[simp] theorem Fault.delivered_none (buffer : Buffer) (new : Page) :
    Fault.delivered none buffer new = new := rfl

end SecondChance
