import SecondChance.Session.Schedule

/-!
Carrying out the commands of a session.

A command is either answered at once or starts a task, which then runs first. After every command
all tasks that can go on do so, and the report of the step says what has come of them.
-/

namespace SecondChance

namespace Catalog

/-- Allocates up to `pages` pages in a file and fills the first with ones, the second with twos and
so on, until an allocation fails. The result counts the pages made. -/
def stock (f : FileNo) : (pages made : Nat) → Catalog → Catalog × Nat
  | 0, made, c => (c, made)
  | pages + 1, made, c =>
    match c.allocate none f with
    | (c, .error _) => (c, made)
    | (c, .ok n) =>
      let content := Page.filled (UInt8.ofNat ((made + 1) % 256))
      stock f pages (made + 1) (c.write none f n (.page content)).1

def readAll (f : FileNo) : List PageNo → Catalog → Catalog × List (Except StoreError Page)
  | [], c => (c, [])
  | n :: ns, c =>
    let (c, r) := c.read none f n (.page .zero)
    let (c, rs) := c.readAll f ns
    (c, r :: rs)

end Catalog

inductive Start
  | answered (answer : Answer) (events : List Event)
  /-- A task has been started under the number of the current step. -/
  | started

/-- What one step of a session comes to. -/
structure Report where
  answer : Answer
  /-- The tasks that have ended after they had to wait, first ended first. -/
  ended : List (TaskId × Answer)
  events : List Event

namespace Session

def complain (s : Session) (c : Complaint) : Session × Start := (s, .answered (.complaint c) [])

def answer (s : Session) (a : Answer) : Session × Start := (s, .answered a [])

def withFile (s : Session) (f : FileNo) (k : Session × Start) : Session × Start :=
  if s.hasFile f then k else s.complain .noFile

def withPool (s : Session) (b : PoolNo) (k : System → Session × Start) : Session × Start :=
  (s.serving? b).elim (s.complain .noPool) k

def withHandle (s : Session) (h : HandleNo) (k : PoolNo → System → Handle → Session × Start) :
    Session × Start :=
  if s.isHandleBusy h then s.complain .handleBusy
  else
    match s.poolOfHandle? h with
    | none => s.complain .noHandle
    | some b =>
      match s.system? b with
      | none => s.complain .noHandle
      | some x => (x.handles.find? h).elim (s.complain .noHandle) (k b x)

/-- A pool that can be used and that nobody is using. A pool that is being closed is neither. -/
def withIdlePool (s : Session) (b : PoolNo) (k : System → Session × Start) : Session × Start :=
  s.withPool b fun x => if x.isIdle then k x else s.complain .poolBusy

def withFreeHandle (s : Session) (h : HandleNo) (k : Session × Start) : Session × Start :=
  if s.isHandleBusy h || (s.poolOfHandle? h).isSome then s.complain .handleTaken else k

def start (s : Session) (b : PoolNo) (x : System) (o : Operation) : Session × Start :=
  (s.setSystem b (x.begin s.now o), .started)

def furnish (s : Session) (c : Catalog) (f : FileNo) (pages : Nat) : Session × Start :=
  let (c, made) := c.stock f pages 0
  ({ s with files := c }, .answered (.opened f (c.labels f).id made) [])

def changeDrive (s : Session) (path : String) (change : Bytes → Bytes) : Session × Start :=
  match s.files.drive.openOrCreate path with
  | (drive, .error e) =>
    ({ s with files.drive := drive }, .answered (.storeRefused (.io e)) [])
  | (drive, .ok place) =>
    ({ s with files.drive := drive.put place (change (drive.contents place)) },
      .answered .done [])

def performOnFiles (s : Session) : Command → Option (Session × Start)
  | .openMemory name limit pages =>
    let (c, f) := s.files.openMemory name limit
    s.furnish c f pages
  | .openDisk path pages =>
    match s.files.openDisk path with
    | (c, .error e) => some ({ s with files := c }, .answered (.storeRefused e) [])
    | (c, .ok f) => s.furnish c f pages
  | .forgetFile f => s.withFile f (({ s with forgotten := f :: s.forgotten } : Session).answer .done)
  | .pageCount f => s.withFile f (s.answer (.count (s.files.pageCount f)))
  | .call c => s.withFile c.target.1 ({ s with calls := s.calls.insert s.now c }, .started)
  | .dump f =>
    let (c, pages) := s.files.readAll f (List.range (s.files.pageCount f))
    s.withFile f (({ s with files := c } : Session).answer (.dump pages))
  | .driveWrite path off len fill =>
    s.changeDrive path fun bytes => bytes.overwrite off (Array.replicate len fill)
  | .driveResize path len => s.changeDrive path fun bytes => bytes.resize len
  | .driveRead path =>
    match s.files.drive.resolve path with
    | .error e => s.answer (.storeRefused (.io e))
    | .ok place =>
      s.answer ((s.files.drive.contents? place).elim (.storeRefused (.io .noEntry)) .contents)
  | .closeGate f kind =>
    s.withFile f (({ s with gates := (f, kind) :: s.gates } : Session).answer .done)
  | .openGate f kind =>
    let gates := s.gates.filter (· ≠ (f, kind))
    s.withFile f (({ s with gates := gates } : Session).answer .done)
  | .plan f kind faults =>
    let all := (s.plans.find? (f, kind)).getD [] ++ faults
    s.withFile f (({ s with plans := s.plans.insert (f, kind) all } : Session).answer .done)
  | .setId f like =>
    s.withFile f <|
      match like with
      | none =>
        let c := s.files.renewId f
        ({ s with files := c } : Session).answer (.id (c.labels f).id)
      | some g =>
        let c := s.files.copyId f g
        s.withFile g (({ s with files := c } : Session).answer (.id (c.labels f).id))
  | _ => none

def performOnHandle (s : Session) : Command → Option (Session × Start)
  | .access h purpose hold =>
    s.withHandle h fun b x handle =>
      let holds := hold.elim s.holds fun name => (name, s.now) :: s.holds
      ({ s with holds := holds } : Session).start b x (.access h handle.stay purpose)
  | .markDirty h => s.withHandle h fun b x _ => (s.setSystem b (x.markDirty h)).answer .done
  | .info h => s.withHandle h fun _ x handle =>
      s.answer (.info handle (x.name handle.stay.file))
  | .release h =>
    s.withHandle h fun b x _ =>
      let (x, r) := x.release h
      (s.setSystem b x).answer (.ofPool r)
  | .drop h =>
    s.withHandle h fun b x _ =>
      let (x, events) := x.drop h
      (s.setSystem b x, .answered .done events)
  | .detach h =>
    s.withHandle h fun b x handle =>
      (s.setSystem b (x.detach h)).answer (.page handle.stay.page)
  | _ => none

def performOnPool (s : Session) : Command → Option (Session × Start)
  | .fetch b f page h =>
    s.withPool b fun x => s.withFile f <| s.withFreeHandle h <| s.start b x (.fetch f page h)
  | .allocate b f h =>
    s.withPool b fun x => s.withFile f <| s.withFreeHandle h <| s.start b x (.allocate f h)
  | .unpin b f page dirty =>
    s.withPool b fun x => s.withFile f <|
      let (x, events, r) := x.unpin f page dirty
      (s.setSystem b x, .answered (.ofPool r) events)
  | .dispose b f page =>
    s.withPool b fun x => s.withFile f <| s.start b x (.dispose f page)
  | .flushFile b f => s.withPool b fun x => s.withFile f <| s.start b x (.flushFile f)
  | .flushAll b => s.withPool b fun x => s.start b x .flushAll
  | .close b =>
    s.withIdlePool b fun x =>
      let berths := s.berths.setIfInBounds b (.closing x.toSite s.now)
      ({ s with berths := berths } : Session).start b x .flushAll
  | .dropPool b =>
    s.withIdlePool b fun _ =>
      let (s, events) := s.vacate b
      (s, .answered .done events)
  | .verify b =>
    s.withPool b fun x => s.answer (.ofPool (x.pool.ledger.audit x.labels))
  | .resident b f page =>
    s.withPool b fun x => s.withFile f <|
      let found := x.pool.ledger.table.find? (x.labels.key f page)
      s.answer (.resident (found.map (x.pool.ledger.snapshot x.labels)))
  | .diagnostics b =>
    s.withPool b fun x => s.answer (.diagnostics (x.pool.ledger.diagnostics x.labels))
  | .config b => s.withPool b fun x => s.answer (.config ⟨x.pool.size⟩)
  | _ => none

def cancel (s : Session) (t : TaskId) : Session × Start :=
  if s.calls.contains t then ({ s with calls := s.calls.erase t } : Session).answer .done
  else
    match s.poolOfTask? t with
    | none => s.complain .noTask
    | some b =>
      match s.system? b with
      | none => s.complain .noTask
      | some x =>
        let (x, events) := x.cancel t
        let (s, more) := (s.setSystem b x).closeAfter b t
        (s, .answered .done (events ++ more))

def endHold (s : Session) (hold : String) : Session × Start :=
  if s.holds.any (·.1 = hold) then
    ({ s with holds := s.holds.filter (·.1 ≠ hold) } : Session).answer .done
  else s.complain .noHold

def newPool (s : Session) (c : Config) : Except Abort Session :=
  (Pool.ofConfig c).map fun p => { s with berths := s.berths.push (.serving (.new p)) }

/-- Begins to carry out a command. -/
def perform (s : Session) (c : Command) : Except Abort (Session × Start) :=
  match c with
  | .newPool config => (s.newPool config).map (·.answer .done)
  | .cancel t => .ok (s.cancel t)
  | .endHold hold => .ok (s.endHold hold)
  | c =>
    .ok ((s.performOnFiles c <|> s.performOnHandle c <|> s.performOnPool c).getD (s.answer .done))

/-- Carries out a command, and then lets all tasks go on as far as they can. -/
def step (s : Session) (c : Command) : Except Abort (Session × Report) := do
  let (s, begun) ← s.perform c
  let (first, answer) := match begun with
    | .answered answer events => ((⟨s, [], events⟩ : Progress), answer)
    | .started =>
      let first := s.run s.now
      (first, first.ended.head?.elim .pending (·.2))
  let later := first.session.settle
  return ({ later.session with now := s.now + 1 },
    ⟨answer, later.ended, first.events ++ later.events⟩)

end Session

end SecondChance
