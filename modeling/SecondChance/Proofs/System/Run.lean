import SecondChance.Proofs.Store.Calls
import SecondChance.System

/-!
Everything that can happen to a pool at work, in any order.

A `Move` is one step of somebody: an operation begins, a task goes on or is given up, a handle is
used. Calls of page files need not be over at once, so two more moves show what can be seen of a
call that has not returned: a load has put something into its frame, or a write has reached the
file. `Permits` says which moves are possible. It asks for what borrowing guarantees to handles,
namely that nobody gives back a handle that is in use and that a writer has its handle alone, and
otherwise only for what the latches and tickets ask.

`Reaches` is a run: the moves made so far with the systems in which they were made, and the system
that they have led to. What is worth remembering of a move is told by its `marks`.
-/

namespace SecondChance

/-- One step of somebody. -/
inductive Move
  /-- An operation begins, as task number `t`. -/
  | begin (t : TaskId) (o : Operation)
  /-- A task goes on, and the call it makes, if any, meets a fault or none. -/
  | resume (t : TaskId) (fault : Option Fault)
  /-- A task is given up together with what it has. -/
  | cancel (t : TaskId)
  /-- Only the use of a page is given up, and the handle stays. -/
  | abandon (t : TaskId)
  | markDirty (h : HandleNo)
  | release (h : HandleNo)
  | drop (h : HandleNo)
  | detach (h : HandleNo)
  | unpin (file : FileNo) (page : PageNo) (dirty : Bool)
  /-- A writer changes the page and keeps it. -/
  | edit (t : TaskId) (e : Page → Page)
  /-- The call of a load that is not over has put something into the frame. -/
  | fill (t : TaskId) (content : Page)
  /-- The call of a write-back that is not over has reached the file. -/
  | strike (t : TaskId)

/-- What can be worth remembering of a move. -/
inductive Mark
  /-- A load has failed or been given up. -/
  | lost (stay : Stay)
  /-- A load has succeeded without delivering all of the page. -/
  | cutShort (stay : Stay)
  /-- A page has been changed by a writer. -/
  | edited (stay : Stay) (e : Page → Page)
  /-- A handle has been forgotten and its pin kept. -/
  | detached (stay : Stay)
  /-- A pin has been given back by page. -/
  | unpinned
  /-- A page is going to be disposed of. -/
  | disposing
  /-- A page has been taken out of the pool in order to be deleted. -/
  | expelled (key : PageKey)
  /-- A page has been asked of a file, which had this one to give. -/
  | allocating (file : FileNo) (offer : Option PageNo)

def Ledger.expels (l : Ledger) (key : PageKey) : Bool :=
  (l.table.find? key).any fun i => (l.occupant? i).any fun o => o.standing = .available

namespace System

def transferOf (s : System) (t : TaskId) : Option Transfer := (s.tasks.find? t).bind (·.transfer?)

def hasFile (s : System) (f : FileNo) : Prop := f < s.files.files.size

def IsUnused (s : System) (h : HandleNo) : Prop := ∀ e ∈ s.tasks.entries, e.2.handle? ≠ some h

instance (s : System) (h : HandleNo) : Decidable (s.IsUnused h) :=
  inferInstanceAs (Decidable (∀ e ∈ s.tasks.entries, e.2.handle? ≠ some h))

def isWriterOf (h : HandleNo) : Task → Bool
  | .access h' _ (.write _) _ => h' = h
  | _ => false

/-- Whether an operation may begin. -/
def Admits (s : System) : Operation → Prop
  | .fetch file _ h | .allocate file h => s.hasFile file ∧ s.handles.find? h = none ∧ s.IsUnused h
  | .dispose file _ | .flushFile file => s.hasFile file
  | .flushAll => True
  | .access h stay .read =>
    (∃ d, s.handles.find? h = some ⟨stay, d⟩) ∧ ∀ e ∈ s.tasks.entries, isWriterOf h e.2 = false
  | .access h stay (.write _) => (∃ d, s.handles.find? h = some ⟨stay, d⟩) ∧ s.IsUnused h

/-- Whether a move is possible. -/
def Permits (s : System) : Move → Prop
  | .begin t o => s.tasks.find? t = none ∧ s.Admits o
  | .resume t _ => s.isReady t = true
  | .cancel t =>
    ∃ task, s.tasks.find? t = some task ∧
      ∀ h stay purpose stage, task = .access h stay purpose stage →
        ∀ e ∈ s.tasks.entries, e.1 ≠ t → e.2.handle? ≠ some h
  | .abandon t => ∃ h stay purpose stage, s.tasks.find? t = some (.access h stay purpose stage)
  | .markDirty h | .release h | .drop h | .detach h =>
    (∃ x, s.handles.find? h = some x) ∧ s.IsUnused h
  | .unpin file _ _ => s.hasFile file
  | .edit t _ => ∃ h stay e, s.tasks.find? t = some (.access h stay (.write e) .inside)
  | .fill t _ => s.isReady t = true ∧ ∃ stay, s.transferOf t = some ⟨.load, stay⟩
  | .strike t => s.isReady t = true ∧ ∃ stay, s.transferOf t = some ⟨.writeBack, stay⟩

def abandon (s : System) (t : TaskId) : System :=
  match s.tasks.find? t with
  | some task@(.access ..) =>
    let pool := task.latch?.elim s.pool fun (frame, _) => s.pool.leave frame t
    { s with pool := pool, tasks := s.tasks.erase t }
  | _ => s

def edit (s : System) (t : TaskId) (e : Page → Page) : System :=
  match s.tasks.find? t with
  | some (.access _ stay (.write _) .inside) =>
    { s with pool := s.pool.setBuffer stay.frame (e (s.pool.buffer stay.frame)) }
  | _ => s

/-- Puts something into the frame of a load. -/
def fill (s : System) (t : TaskId) (content : Page) : System :=
  match s.transferOf t with
  | some ⟨.load, stay⟩ => { s with pool := s.pool.setBuffer stay.frame content }
  | _ => s

/-- Lets the write of a write-back take effect. -/
def strike (s : System) (t : TaskId) : System :=
  match s.transferOf t with
  | some ⟨.writeBack, stay⟩ =>
    let page := s.pool.buffer stay.frame
    { s with files := (s.files.write none stay.file stay.page (.page page)).1 }
  | _ => s

def after (s : System) : Move → System
  | .begin t o => s.begin t o
  | .resume t fault => (s.resume t fault).1
  | .cancel t => (s.cancel t).1
  | .abandon t => s.abandon t
  | .markDirty h => s.markDirty h
  | .release h => (s.release h).1
  | .drop h => (s.drop h).1
  | .detach h => s.detach h
  | .unpin file page dirty => (s.unpin file page dirty).1
  | .edit t e => s.edit t e
  | .fill t content => s.fill t content
  | .strike t => s.strike t

/-- The error that a move reports, to its caller or, where nobody is there to hear of it, in an
event. -/
def refusal? (s : System) : Move → Option PoolError
  | .resume t fault =>
    match (s.resume t fault).2.2 with
    | some (.refused e) => some e
    | _ => none
  | .cancel t =>
    match (s.cancel t).2 with
    | [.unpinFailed _ _ _ e] => some e
    | _ => none
  | .release h =>
    match (s.release h).2 with
    | .error e => some e
    | .ok () => none
  | .drop h =>
    match (s.drop h).2 with
    | [.unpinFailed _ _ _ e] => some e
    | _ => none
  | .unpin file page dirty =>
    match (s.unpin file page dirty).2.2 with
    | .error e => some e
    | .ok () => none
  | _ => none

def marksOf (s : System) (fault : Option Fault) : Task → List Mark
  | .allocate file _ => [.allocating file (s.files.allocate none file).2.toOption]
  | .fetch _ _ _ _ (.move ⟨.load, stay⟩) =>
    match s.files.read fault stay.file stay.page (.page (s.pool.buffer stay.frame)) with
    | (_, .ok _) => if Fault.cuts fault then [.cutShort stay] else []
    | (_, .error _) => [.lost stay]
  | .expel _ _ key _ => if s.pool.ledger.expels key then [.expelled key] else []
  | .access _ stay (.write e) .inside => [.edited stay e]
  | _ => []

/-- What is worth remembering of a move. -/
def marks (s : System) : Move → List Mark
  | .begin _ (.dispose ..) => [.disposing]
  | .resume t fault => (s.tasks.find? t).elim [] (s.marksOf fault)
  | .cancel t =>
    match s.transferOf t with
    | some ⟨.load, stay⟩ => [.lost stay]
    | _ => []
  | .detach h => (s.handles.find? h).elim [] fun x => [.detached x.stay]
  | .unpin .. => [.unpinned]
  | .edit t e =>
    match s.tasks.find? t with
    | some (.access _ stay (.write _) .inside) => [.edited stay e]
    | _ => []
  | _ => []

/-- What is known of a move for which a mark is remembered. -/
def Tells (s : System) (m : Move) : Mark → Prop
  | .edited stay e => ∃ t h,
    (m = .edit t e ∧ ∃ e₀, s.tasks.find? t = some (.access h stay (.write e₀) .inside)) ∨
      ∃ fault, m = .resume t fault ∧ s.tasks.find? t = some (.access h stay (.write e) .inside)
  | .allocating file offer => ∃ t fault h, m = .resume t fault ∧
    s.tasks.find? t = some (.allocate file h) ∧ offer = (s.files.allocate none file).2.toOption
  | .cutShort _ => ∃ t fault, m = .resume t fault ∧ Fault.cuts fault = true
  | .detached _ => ∃ h, m = .detach h
  | .unpinned => ∃ file page dirty, m = .unpin file page dirty
  | .disposing => ∃ t file page, m = .begin t (.dispose file page)
  | .lost _ | .expelled _ => True

theorem marks_cases (s : System) (m : Move) :
    s.marks m = [] ∨ ∃ k, s.marks m = [k] ∧ s.Tells m k := by
  cases m with
  | begin t op =>
    cases op with
    | dispose => exact .inr ⟨_, rfl, _, _, _, rfl⟩
    | _ => exact .inl rfl
  | resume t fault =>
    cases ht : s.tasks.find? t with
    | none => exact .inl (by rw [marks, ht, Option.elim_none])
    | some task =>
      rw [marks, ht, Option.elim_some]
      unfold marksOf
      split
      · exact .inr ⟨_, rfl, t, fault, _, rfl, ht, rfl⟩
      · split
        · split
          · next hc => exact .inr ⟨_, rfl, t, fault, rfl, hc⟩
          · exact .inl rfl
        · exact .inr ⟨_, rfl, trivial⟩
      · split
        · exact .inr ⟨_, rfl, trivial⟩
        · exact .inl rfl
      · exact .inr ⟨_, rfl, t, _, .inr ⟨fault, rfl, ht⟩⟩
      · exact .inl rfl
  | cancel t =>
    rw [marks]
    split
    · exact .inr ⟨_, rfl, trivial⟩
    · exact .inl rfl
  | detach h =>
    rw [marks]
    cases s.handles.find? h with
    | none => exact .inl rfl
    | some x => exact .inr ⟨_, rfl, h, rfl⟩
  | unpin => exact .inr ⟨_, rfl, _, _, _, rfl⟩
  | edit t e =>
    rw [marks]
    split
    · next ht => exact .inr ⟨_, rfl, t, _, .inl ⟨rfl, _, ht⟩⟩
    · exact .inl rfl
  | _ => exact .inl rfl

theorem tells_of_mem {s : System} {m : Move} {k : Mark} (hk : k ∈ s.marks m) : s.Tells m k := by
  rcases s.marks_cases m with hn | ⟨k', he, ht⟩
  · rw [hn] at hk
    cases hk
  · rw [he] at hk
    obtain rfl := List.mem_singleton.1 hk
    exact ht

end System

/-- The moves made so far, the latest first, each with the system in which it was made. -/
abbrev History := List (System × Move)

def History.marks : History → List Mark
  | [] => []
  | (s, m) :: h => History.marks h ++ s.marks m

/-- A run from `s₀` in which only moves of some kind are made. -/
inductive Reaches (allowed : Move → Prop) (s₀ : System) : History → System → Prop
  | start : Reaches allowed s₀ [] s₀
  | move {h : History} {s : System} {m : Move} (run : Reaches allowed s₀ h s)
      (possible : s.Permits m) (kind : allowed m) : Reaches allowed s₀ ((s, m) :: h) (s.after m)

theorem Reaches.mono {allowed allowed' : Move → Prop} (hle : ∀ m, allowed m → allowed' m)
    {s₀ s : System} {h : History} (run : Reaches allowed s₀ h s) : Reaches allowed' s₀ h s := by
  induction run with
  | start => exact .start
  | move _ possible kind ih => exact .move ih possible (hle _ kind)

theorem Reaches.append {allowed : Move → Prop} {s₀ s s' : System} {h h' : History}
    (run : Reaches allowed s₀ h s) (more : Reaches allowed s h' s') :
    Reaches allowed s₀ (h' ++ h) s' := by
  induction more with
  | start => exact run
  | move _ possible kind ih => exact .move ih possible kind

/-! ### Runs in small -/

/-- What several moves lead to, with their history. -/
def System.play (s : System) (moves : List Move) : History × System :=
  moves.foldl (fun (h, s) m => ((s, m) :: h, s.after m)) ([], s)

def System.CanPlay (s : System) : List Move → Prop
  | [] => True
  | m :: moves => s.Permits m ∧ (s.after m).CanPlay moves

section Play

variable {allowed : Move → Prop} {s₀ s : System} {h : History} {moves : List Move}

theorem Reaches.goOn (run : Reaches allowed s₀ h s) (possible : s.CanPlay moves)
    (kind : ∀ m ∈ moves, allowed m) :
    Reaches allowed s₀ (moves.foldl (fun (h, s) m => ((s, m) :: h, s.after m)) (h, s)).1
      (moves.foldl (fun (h, s) m => ((s, m) :: h, s.after m)) (h, s)).2 := by
  induction moves generalizing h s with
  | nil => exact run
  | cons m moves ih =>
    obtain ⟨first, rest⟩ := possible
    have longer := run.move first (kind m List.mem_cons_self)
    exact ih longer rest fun x hx => kind x (List.mem_cons_of_mem m hx)

theorem Reaches.play (possible : s.CanPlay moves) (kind : ∀ m ∈ moves, allowed m) :
    Reaches allowed s (s.play moves).1 (s.play moves).2 :=
  Reaches.start.goOn possible kind

end Play

/-- A pool of one frame over one page file in memory that has no pages yet. -/
def System.small : System := .new 1 (Catalog.empty.openMemory "small" none).1

/-- The pool when somebody has asked for a page and the page is being loaded. -/
def System.smallLoading : System :=
  (System.small.after (.begin 0 (.fetch 0 0 0))).after (.resume 0 none)

theorem Reaches.smallLoading {allowed : Move → Prop} (hb : allowed (.begin 0 (.fetch 0 0 0)))
    (hr : allowed (.resume 0 none)) : ∃ h, Reaches allowed .small h .smallLoading := by
  have first : System.small.Permits (.begin 0 (.fetch 0 0 0)) := by
    refine ⟨rfl, Nat.zero_lt_one, rfl, ?_⟩
    exact fun _ he => nomatch he
  exact ⟨_, .move (.move .start first hb) rfl hr⟩

end SecondChance
