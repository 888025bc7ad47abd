import SecondChance.Pool.Diagnostics
import SecondChance.Scan.Arguments
import SecondChance.System

/-!
The scan program: it makes sure that a page file has enough pages, and then goes through them
several times, each time adding one to the counter at the beginning of every page. All of this goes
through a buffer pool, whose frames are shown at the end before everything is flushed.

The counters are machine words. One that cannot grow any further ends the program on the spot; then
the file holds what had been written back to it until then.
-/

namespace SecondChance.Scan

/-- How the program ends: its exit code, what it has written, and the drive it leaves behind. -/
structure Outcome where
  code : Nat
  output : List String
  complaint : Option String
  drive : Drive

def Outcome.text (o : Outcome) : String := String.join (o.output.map (· ++ "\n"))

inductive Failure
  /-- An error, with the messages of everything that caused it, outermost first. -/
  | error (messages : List String)
  | abort (a : Abort)

structure Halt where
  failure : Failure
  files : Catalog

def indent (first later message : String) : String :=
  "\n".intercalate
    (match message.splitOn "\n" with
      | [] => []
      | line :: lines => (first ++ line) :: lines.map (later ++ ·))

/-- The causes of an error, one below the other. If there are several they are numbered from
zero. -/
def causeLines : List String → List String
  | [] => []
  | [cause] => [indent "    " "    " cause]
  | causes => causes.zipIdx.map fun (cause, n) => indent s!"    {n}: " "       " cause

def errorText : List String → String
  | [] => ""
  | message :: causes =>
    let lines := causeLines causes
    let more := if lines.isEmpty then [] else ["", "Caused by:"] ++ lines
    "\n".intercalate (("Error: " ++ message) :: more) ++ "\n"

abbrev Step (α : Type) := Except Halt α

def refuse {α : Type} (s : System) (context : List String) (e : PoolError) : Step α :=
  .error ⟨.error (context ++ e.message :: e.causes), s.files⟩

def complete (s : System) (o : Operation) : System × Option Result :=
  let (s, _, result) := (s.begin 0 o).run s.ampleSteps 0
  (s, result)

def giveBack (s : System) : Step System :=
  match s.release 0 with
  | (s, .ok ()) => .ok s
  | (s, .error e) => refuse s [] e

def grow (f : FileNo) : (pages : Nat) → System → Step System
  | 0, s => .ok s
  | pages + 1, s =>
    match complete s (.allocate f 0) with
    | (s, some (.refused e)) => refuse s [] e
    | (s, _) => do
      let s ← giveBack s
      grow f pages s

def increment (s : System) (stay : Stay) : Step System :=
  let n := (s.pool.buffer stay.frame).word 0 + 1
  if n < wordLimit then
    match complete s (.access 0 stay (.write fun p => p.setWord 0 n)) with
    | (s, some (.refused e)) => refuse s [] e
    | (s, _) => .ok s
  else .error ⟨.abort .sumTooLarge, s.files⟩

def bump (f : FileNo) (s : System) (page : PageNo) : Step System :=
  match complete s (.fetch f page 0) with
  | (s, some (.refused e)) => refuse s [] e
  | (s, _) =>
    match s.handles.find? 0 with
    | none => .ok s
    | some h => do
      let s ← increment s h.stay
      giveBack s

def scan (f : FileNo) (pages : Nat) : (passes : Nat) → System → Step System
  | 0, s => .ok s
  | passes + 1, s => do
    let s ← (List.range pages).foldlM (bump f) s
    scan f pages passes s

def flush (s : System) : Step System :=
  match complete s .flushAll with
  | (s, some (.refused e)) => refuse s ["failed to flush buffer pool"] e
  | (s, _) => .ok s

/-- The program on an open file, with a pool that has frames: what it writes, and the files it
leaves behind. -/
def work (a : Arguments) (c : Catalog) (f : FileNo) : Step (List String × Catalog) := do
  let config : Config := ⟨a.frames⟩
  let abort (e : Abort) : Halt := ⟨.abort e, c⟩
  let _ ← config.memory.mapError abort
  let pool ← (Pool.ofConfig config).mapError abort
  let s ← grow f (a.pages - c.pageCount f) { toSite := .new pool, files := c }
  let s ← scan f a.pages a.passes s
  let shown := (s.pool.ledger.diagnostics s.labels).lines
  let s ← flush s
  return (shown ++ [s!"{a.passes} passes over {a.pages} pages with {a.frames} frames"], s.files)

def run (drive : Drive) (a : Arguments) : Outcome :=
  if a.frames = 0 then
    ⟨1, [], some (errorText ["--pool-size must be at least 1"]), drive⟩
  else
    match ({ Catalog.empty with drive := drive } : Catalog).openDisk a.path with
    | (c, .error e) =>
      ⟨1, [], some (errorText (("failed to open " ++ a.path) :: e.message :: e.causes)), c.drive⟩
    | (c, .ok f) =>
      match work a c f with
      | .ok (output, c) => ⟨0, output, none, c.drive⟩
      | .error ⟨.error messages, c⟩ => ⟨1, [], some (errorText messages), c.drive⟩
      | .error ⟨.abort _, c⟩ => ⟨101, [], none, c.drive⟩

/-- The program with its command line. Questions about the program itself are answered elsewhere. -/
def runCommandLine (drive : Drive) (args : List String) : Outcome :=
  match parse args with
  | .inform => ⟨0, [], none, drive⟩
  | .invalid => ⟨2, [], none, drive⟩
  | .run a => run drive a

end SecondChance.Scan
