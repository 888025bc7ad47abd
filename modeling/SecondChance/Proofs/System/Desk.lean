import SecondChance.Proofs.System.Mirrors

/-!
One errand after the other.

Somebody who has a pool to himself runs one errand after the other and has one page on loan at most.
The same errands can be run at a *desk*, where there is no pool at all: files are used directly, and
all that has to be remembered is which page is on loan. A system `Stands` for a desk if it mirrors
the files there and has the same page on loan. What is said here of errands in general is that each
of them comes to its end, and what has to be known of single steps for that.
-/

namespace SecondChance

/-- What somebody can ask for who has one page at most. -/
inductive Errand
  | fetch (file : FileNo) (page : PageNo)
  | allocate (file : FileNo)
  | read
  | edit (e : Page → Page)
  | release
  | dispose (file : FileNo) (page : PageNo)
  | flushFile (file : FileNo)
  | flushAll

def Errand.fits (files : Nat) (lent : Bool) : Errand → Bool
  | .fetch file _ | .allocate file => file < files && !lent
  | .read | .edit _ | .release => lent
  | .dispose file _ | .flushFile file => file < files
  | .flushAll => true

/-- What becomes of an errand. -/
inductive Reply
  /-- It cannot be run. -/
  | notRun
  /-- It does not come to its end. -/
  | stuck
  | ended (result : Result)

/-! ### Apart from frames -/

/-- An error without the number of its frame. -/
def PoolError.unplaced : PoolError → PoolError
  | .notPinned file page _ => .notPinned file page 0
  | .pinned file page _ => .pinned file page 0
  | .inconsistent _ detail => .inconsistent 0 detail
  | .stale _ => .stale 0
  | e => e

def Result.unplaced : Result → Result
  | .lent page _ => .lent page 0
  | .refused e => .refused e.unplaced
  | r => r

def Reply.unplaced : Reply → Reply
  | .ended r => .ended r.unplaced
  | r => r

/-! ### Errands at a pool -/

namespace System

/-- Carries out an operation as the only one, under task number `0`. -/
def carryOut (s : System) (op : Operation) : System × Reply :=
  match (s.begin 0 op).run s.ampleSteps 0 with
  | (s, _, some r) => (s, .ended r)
  | (s, _, none) => (s, .stuck)

def accessLent (s : System) (purpose : Access) : System × Reply :=
  match s.handles.find? 0 with
  | none => (s, .notRun)
  | some x => s.carryOut (.access 0 x.stay purpose)

def releaseLent (s : System) : System × Reply :=
  match s.release 0 with
  | (s, .ok ()) => (s, .ended .done)
  | (s, .error e) => (s, .ended (.refused e))

/-- Runs an errand, with handle number `0` for the page on loan. -/
def serve (s : System) (x : Errand) : System × Reply :=
  if x.fits s.files.files.size (s.handles.find? 0).isSome then
    match x with
    | .fetch file page => s.carryOut (.fetch file page 0)
    | .allocate file => s.carryOut (.allocate file 0)
    | .read => s.accessLent .read
    | .edit e => s.accessLent (.write e)
    | .release => s.releaseLent
    | .dispose file page => s.carryOut (.dispose file page)
    | .flushFile file => s.carryOut (.flushFile file)
    | .flushAll => s.carryOut .flushAll
  else (s, .notRun)

end System

/-! ### Errands at a desk -/

/-- Files that are used directly, and the page that is on loan. -/
structure Desk where
  files : Catalog
  lent : Option (FileNo × PageNo)

namespace Desk

def name (d : Desk) (f : FileNo) : String := (d.files.labels f).name

def fetch (d : Desk) (f : FileNo) (p : PageNo) : Desk × Result :=
  match d.files.read none f p (.page .zero) with
  | (c, .ok _) => (⟨c, some (f, p)⟩, .lent p 0)
  | (c, .error e) => ({ d with files := c }, .refused (.store e))

def allocate (d : Desk) (f : FileNo) : Desk × Result :=
  match d.files.allocate none f with
  | (c, .ok p) => fetch { d with files := c } f p
  | (c, .error e) => ({ d with files := c }, .refused (.store e))

def read (d : Desk) (f : FileNo) (p : PageNo) : Desk × Result :=
  match d.files.read none f p (.page .zero) with
  | (c, .ok q) => ({ d with files := c }, .content q)
  | (c, .error e) => ({ d with files := c }, .refused (.store e))

def edit (d : Desk) (f : FileNo) (p : PageNo) (e : Page → Page) : Desk × Result :=
  match d.files.read none f p (.page .zero) with
  | (c, .error e) => ({ d with files := c }, .refused (.store e))
  | (c, .ok q) =>
    match c.write none f p (.page (e q)) with
    | (c, .ok ()) => ({ d with files := c }, .done)
    | (c, .error e) => ({ d with files := c }, .refused (.store e))

def dispose (d : Desk) (f : FileNo) (p : PageNo) : Desk × Result :=
  if d.lent = some (f, p) then (d, .refused (.pinned (d.name f) p 0))
  else
    match d.files.delete none f p with
    | (c, .ok ()) => ({ d with files := c }, .done)
    | (c, .error e) => ({ d with files := c }, .refused (.store e))

/-- A flush of a file at the desk has nothing to write back; it is refused if a page of the file is
on loan. -/
def flushFile (d : Desk) (f : FileNo) : Desk × Result :=
  match d.lent with
  | some (g, p) => if g = f then (d, .refused (.pinned (d.name f) p 0)) else (d, .done)
  | none => (d, .done)

/-- Runs an errand. -/
def serve (d : Desk) (x : Errand) : Desk × Reply :=
  if x.fits d.files.files.size d.lent.isSome then
    match x, d.lent with
    | .fetch f p, _ => (d.fetch f p).map id .ended
    | .allocate f, _ => (d.allocate f).map id .ended
    | .read, some (f, p) => (d.read f p).map id .ended
    | .edit e, some (f, p) => (d.edit f p e).map id .ended
    | .release, _ => ({ d with lent := none }, .ended .done)
    | .dispose f p, _ => (d.dispose f p).map id .ended
    | .flushFile f, _ => (d.flushFile f).map id .ended
    | .flushAll, _ => (d, .ended .done)
    | _, none => (d, .notRun)
  else (d, .notRun)

end Desk

namespace System

variable {s : System} {d : Desk} {task : Task} {op : Operation}

/-! ### From beginning to end -/

/-- No operation is in progress. -/
structure Quiescent (s : System) : Prop where
  regular : s.Regular
  attended : s.Attended
  idle (t : TaskId) : s.tasks.find? t = none

theorem Quiescent.new {n : Nat} (hn : 0 < n) (c : Catalog) : (System.new n c).Quiescent :=
  ⟨.new hn c, .new n c, fun _ => rfl⟩

theorem Alone.quiescent {t : TaskId} (h : s.Alone t) (ended : s.tasks.find? t = none) :
    s.Quiescent where
  regular := h.regular
  attended := h.attended
  idle u := by
    by_cases hu : t = u
    · exact hu ▸ ended
    · exact h.others hu

namespace Quiescent

variable (h : s.Quiescent)
include h

theorem alone {t : TaskId} : s.Alone t := ⟨h.regular, h.attended, fun _ => h.idle _⟩

theorem not_mem (e : TaskId × Task) : e ∉ s.tasks.entries :=
  fun he => by cases (h.idle e.1).symm.trans ((s.tasks.mem_entries_iff e.1 e.2).1 he)

theorem isUnused (k : HandleNo) : s.IsUnused k := fun e he => (h.not_mem e he).elim

theorem admits_access {k : HandleNo} {x : Handle} (hx : s.handles.find? k = some x)
    (purpose : Access) : s.Admits (.access k x.stay purpose) := by
  cases purpose with
  | read => exact ⟨⟨x.dirty, hx⟩, fun e he => (h.not_mem e he).elim⟩
  | write => exact ⟨⟨x.dirty, hx⟩, h.isUnused k⟩

theorem begin (admits : s.Admits op) (t : TaskId) :
    s.Permits (.begin t op) ∧ (s.begin t op).Alone t ∧
      (s.begin t op).tasks.find? t = some (firstTask s.labels op) := by
  have possible : s.Permits (.begin t op) := ⟨h.idle t, admits⟩
  have acts := acts_after h.regular.orderly h.regular.consistent.size_pos possible
  refine ⟨possible, ⟨acts.regular h.regular, h.attended.move h.regular possible, fun hu => ?_⟩, ?_⟩
  · rw [tasks_begin, Table.find?_insert, if_neg hu, h.idle]
  · rw [tasks_begin, Table.find?_insert_self]

/-- An operation that is carried out comes to the end that its steps lead to. -/
theorem carryOut {I : Task → System → Prop} {Q : Result → System → Prop} (admits : s.Admits op)
    (first : I (firstTask s.labels op) (s.begin 0 op))
    (step : ∀ {s : System} {task : Task}, s.Alone 0 → s.tasks.find? 0 = some task → I task s →
      Leads I Q (s.after (.resume 0 none)) (s.advance 0 none task).2.2) :
    ∃ r, (s.carryOut op).2 = .ended r ∧ Q r (s.carryOut op).1 ∧ (s.carryOut op).1.Quiescent := by
  obtain ⟨-, alone, ht⟩ := h.begin admits 0
  have enough : (firstTask s.labels op).effort (s.begin 0 op).pool.ledger.size
      (s.begin 0 op).pool.ledger.dirtyFrames.card ≤ s.ampleSteps := by
    rw [ledger_begin]
    exact s.effort_firstTask_le s.labels op
  obtain ⟨r, hr, hQ, alone', ended⟩ := alone.run step ht first enough
  have quiescent := alone'.quiescent ended
  unfold System.carryOut
  generalize (s.begin 0 op).run s.ampleSteps 0 = x at hr hQ quiescent
  obtain ⟨s', events, result⟩ := x
  obtain rfl : result = some r := hr
  exact ⟨r, rfl, hQ, quiescent⟩

end Quiescent

/-! ### Pools that stand for a desk -/

/-- The page on loan is under handle number `0` and in place, and there is no other handle. -/
structure Lends (s : System) (lent : Option (FileNo × PageNo)) : Prop where
  others {k : HandleNo} (hk : k ≠ 0) : s.handles.find? k = none
  nothing (hl : lent = none) : s.handles.find? 0 = none
  page {f : FileNo} {p : PageNo} (hl : lent = some (f, p)) :
    ∃ x, s.handles.find? 0 = some x ∧ x.stay.file = f ∧ x.stay.page = p ∧ s.InPlace x.stay

theorem Lends.find?_eq_none {lent : Option (FileNo × PageNo)} (h : s.Lends lent)
    (hl : lent = none) (k : HandleNo) : s.handles.find? k = none := by
  by_cases hk : k = 0
  · rw [hk, h.nothing hl]
  · exact h.others hk

theorem Lends.isSome_eq {lent : Option (FileNo × PageNo)} (h : s.Lends lent) :
    (s.handles.find? 0).isSome = lent.isSome := by
  cases hl : lent with
  | none => rw [h.nothing hl]; rfl
  | some fp =>
    obtain ⟨x, hx, -⟩ := h.page hl
    rw [hx]
    rfl

theorem Lends.after {lent : Option (FileNo × PageNo)} {ks : List Mark} {m : Move}
    (h : s.Lends lent) (sound : s.Sound ks) (possible : s.Permits m)
    (same : ∀ k, ((s.after m).handles.find? k).map (·.stay) =
      (s.handles.find? k).map (·.stay)) : (s.after m).Lends lent where
  others {k} hk := by
    have none := same k
    rwa [h.others hk, Option.map_none, Option.map_eq_none_iff] at none
  nothing hl := by
    have none := same 0
    rwa [h.nothing hl, Option.map_none, Option.map_eq_none_iff] at none
  page hl := by
    obtain ⟨x, hx, hf, hp, place⟩ := h.page hl
    have still := same 0
    rw [hx] at still
    obtain ⟨y, hy, stay⟩ := Option.map_eq_some_iff.1 still
    have stay : y.stay = x.stay := stay
    exact ⟨y, hy, by rw [stay, hf], by rw [stay, hp],
      stay ▸ sound.inPlace_after possible hx place⟩

/-- The system mirrors the files of a desk and has the same page on loan. -/
structure Stands (s : System) (d : Desk) : Prop where
  mirrors : ∃ ks, s.Mirrors ks d.files
  lends : s.Lends d.lent

namespace Stands

variable (h : s.Stands d)
include h

theorem hasFile_iff (f : FileNo) : s.hasFile f ↔ f < d.files.files.size := by
  obtain ⟨ks, mirrors⟩ := h.mirrors
  exact mirrors.hasFile_iff f

theorem name_eq (f : FileNo) : s.name f = d.name f := by
  obtain ⟨ks, mirrors⟩ := h.mirrors
  rw [System.name, mirrors.labels_eq, Desk.name]

theorem content_eq {f : FileNo} (hf : s.hasFile f) (p : PageNo) :
    s.content f p = d.files.page? f p := by
  obtain ⟨ks, mirrors⟩ := h.mirrors
  exact mirrors.content hf p

theorem alike {c : Catalog} (apart : c.Apart) (registry : c.registry = d.files.registry)
    (shape : c.shape? = d.files.shape?) (pages : c.page? = d.files.page?) :
    s.Stands { d with files := c } := by
  obtain ⟨ks, mirrors⟩ := h.mirrors
  exact ⟨⟨ks, mirrors.alike apart registry shape pages⟩, h.lends⟩

theorem resume (alone : s.Alone 0) (ht : s.tasks.find? 0 = some task)
    (silent : task.isSilent = true)
    (handles : (s.after (.resume 0 none)).handles = s.handles) :
    (s.after (.resume 0 none)).Stands d := by
  obtain ⟨ks, mirrors⟩ := h.mirrors
  have ready : s.Permits (.resume 0 none) := alone.isReady ht
  exact ⟨⟨_, mirrors.resume ready ht silent⟩,
    h.lends.after mirrors.sound ready fun k => by rw [handles]⟩

end Stands

end System

end SecondChance
