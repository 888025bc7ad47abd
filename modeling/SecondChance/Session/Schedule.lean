import SecondChance.Session.State

/-!
Who goes on next.

A task runs until it ends or has to wait. Whenever something has been done, all tasks in progress
are gone through in the order of their numbers, and each that can go on does so; this is repeated
until none can. The order is thus settled by the numbers of the tasks alone.

The number of steps is bounded in advance, because nothing in a pool's rules says how often an
operation may look again. The bounds are far above what the tasks in progress can use.
-/

namespace SecondChance

structure Progress where
  session : Session
  /-- The tasks that have ended, first ended first. -/
  ended : List (TaskId × Answer)
  events : List Event

namespace Session

def isFree (s : Session) (t : TaskId) (task : Task) : Bool :=
  task.call?.all (fun target => !s.gates.contains target) &&
    match task with
    | .access _ _ _ .inside => !s.holds.any (·.2 = t)
    | _ => true

def isReady (s : Session) (t : TaskId) : Bool :=
  match s.calls.find? t with
  | some c => !s.gates.contains c.target
  | none =>
    match s.poolOfTask? t >>= s.system? with
    | none => false
    | some x => (x.tasks.find? t).any fun task => task.isReady x.pool t && s.isFree t task

/-- The pool of a berth is given up once the task that closes it is over. -/
def vacate (s : Session) (b : PoolNo) : Session × List Event :=
  match s.berths[b]? with
  | some berth =>
    ({ s with berths := s.berths.setIfInBounds b .gone }, berth.site?.elim [] Site.farewell)
  | none => (s, [])

def closeAfter (s : Session) (b : PoolNo) (t : TaskId) : Session × List Event :=
  match s.berths[b]? with
  | some (.closing _ u) => if u = t then s.vacate b else (s, [])
  | _ => (s, [])

def resumeIn (s : Session) (b : PoolNo) (t : TaskId) : Progress :=
  match s.system? b with
  | none => ⟨s, [], []⟩
  | some x =>
    let (s, fault) := ((x.tasks.find? t).bind Task.call?).elim (s, none) s.takeFault
    match x.resume t fault with
    | (x, events, none) => ⟨s.setSystem b x, [], events⟩
    | (x, events, some result) =>
      let (s, more) := (s.setSystem b x).closeAfter b t
      ⟨s, [(t, .ofResult result)], events ++ more⟩

def resume (s : Session) (t : TaskId) : Progress :=
  match s.calls.find? t with
  | some c =>
    let (s, fault) := s.takeFault c.target
    let (files, answer) := c.perform s.files fault
    ⟨{ s with files := files, calls := s.calls.erase t }, [(t, answer)], []⟩
  | none => (s.poolOfTask? t).elim ⟨s, [], []⟩ (s.resumeIn · t)

def runTask : (steps : Nat) → Session → TaskId → Progress
  | 0, s, _ => ⟨s, [], []⟩
  | steps + 1, s, t =>
    if s.isReady t then
      let first := s.resume t
      let later := runTask steps first.session t
      ⟨later.session, first.ended ++ later.ended, first.events ++ later.events⟩
    else ⟨s, [], []⟩

/-- A bound on the steps that a task can take before it has to wait. -/
def ampleSteps (s : Session) : Nat :=
  s.berths.foldl (fun n b => b.site?.elim n fun site => max n (4 * site.pool.size)) 16

def run (s : Session) (t : TaskId) : Progress := runTask s.ampleSteps s t

def runAll (s : Session) : List TaskId → Progress
  | [] => ⟨s, [], []⟩
  | t :: ts =>
    let first := s.run t
    let later := first.session.runAll ts
    ⟨later.session, first.ended ++ later.ended, first.events ++ later.events⟩

/-- Goes through all tasks again and again, at most so many times, until none can go on. -/
def settleFor : (rounds : Nat) → Session → Progress
  | 0, s => ⟨s, [], []⟩
  | rounds + 1, s =>
    if s.tasks.any s.isReady then
      let first := s.runAll s.tasks
      let later := settleFor rounds first.session
      ⟨later.session, first.ended ++ later.ended, first.events ++ later.events⟩
    else ⟨s, [], []⟩

def settle (s : Session) : Progress :=
  settleFor ((s.tasks.length + 1) * (s.ampleSteps + 1)) s

end Session

end SecondChance
