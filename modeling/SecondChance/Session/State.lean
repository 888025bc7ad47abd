import SecondChance.Session.Command
import SecondChance.System

/-!
The state of a session: several pools over one catalogue of files, and everything that makes an
operation wait that is not a pool's own affair.

Such reasons to wait are gates, which hold back all calls of one kind to one file, and holds, which
keep a borrower of a page from using it. Both only decide who goes on next. Faults are planned
ahead, call by call.
-/

namespace SecondChance

/-- What has become of a pool. -/
inductive Berth
  | serving (s : Site)
  /-- Closed, but not before the given task has flushed it. -/
  | closing (s : Site) (t : TaskId)
  | gone

namespace Berth

def site? : Berth → Option Site
  | .serving s | .closing s _ => some s
  | .gone => none

def serving? : Berth → Option Site
  | .serving s => some s
  | _ => none

def setSite (b : Berth) (s : Site) : Berth :=
  match b with
  | .serving _ => .serving s
  | .closing _ t => .closing s t
  | .gone => .gone

end Berth

/-- A session. -/
structure Session where
  files : Catalog
  /-- Files that commands may not name any more. -/
  forgotten : List FileNo
  berths : Array Berth
  /-- Calls in progress that do not go through a pool. -/
  calls : Table TaskId FileCall
  /-- The gates that are closed. -/
  gates : List (FileNo × CallKind)
  /-- The faults that the next calls meet. -/
  plans : Table (FileNo × CallKind) (List (Option Fault))
  /-- The holds that have not been ended, each with the task that it concerns. -/
  holds : List (String × TaskId)
  /-- The number of the current step. -/
  now : TaskId

namespace Session

def new : Session := ⟨.empty, [], #[], .empty, [], .empty, [], 0⟩

def system? (s : Session) (b : PoolNo) : Option System :=
  (s.berths[b]?.bind Berth.site?).map fun site => { toSite := site, files := s.files }

def serving? (s : Session) (b : PoolNo) : Option System :=
  (s.berths[b]?.bind Berth.serving?).map fun site => { toSite := site, files := s.files }

def setSystem (s : Session) (b : PoolNo) (x : System) : Session :=
  { s with berths := s.berths.modify b (·.setSite x.toSite), files := x.files }

def hasFile (s : Session) (f : FileNo) : Bool := f < s.files.files.size && !s.forgotten.contains f

def findPool? (s : Session) (p : Site → Bool) : Option PoolNo :=
  s.berths.findIdx? fun b => b.site?.any p

def poolOfTask? (s : Session) (t : TaskId) : Option PoolNo := s.findPool? (·.tasks.contains t)

def poolOfHandle? (s : Session) (h : HandleNo) : Option PoolNo :=
  s.findPool? (·.handles.contains h)

def isHandleBusy (s : Session) (h : HandleNo) : Bool :=
  (s.findPool? fun site => site.tasks.entries.any fun (_, task) => task.handle? == some h).isSome

def tasks (s : Session) : List TaskId :=
  let inPools := s.berths.toList.flatMap fun b => b.site?.elim [] (·.tasks.keys)
  (inPools ++ s.calls.keys).mergeSort (· ≤ ·)

def takeFault (s : Session) (target : FileNo × CallKind) : Session × Option Fault :=
  match s.plans.find? target with
  | some (fault :: next) => ({ s with plans := s.plans.insert target next }, fault)
  | _ => (s, none)

/-- The counts of the calls that a file has served, if it counts them and has not been forgotten. -/
def stats? (s : Session) (f : FileNo) : Option Stats :=
  match s.files.files[f]? with
  | some ⟨_, _, .memory m⟩ => if s.hasFile f then some m.stats else none
  | _ => none

end Session

end SecondChance
