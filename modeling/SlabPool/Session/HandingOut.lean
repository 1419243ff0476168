import SlabPool.Session.Response

/-!
# Making pools and taking items from them

While a command of this module is carried out, the heap may be set to refuse a request. It is set
back in any case once the command is over.
-/

namespace SlabPool

namespace NameRun

/-- The name that would continue a run. -/
def next (run : NameRun) : ItemName :=
  match run.first with
  | .place block index => .place block (index + run.count)
  | .number n => .number (n + run.count)

/-- Adds a name to runs of which the latest stands first. -/
def extend (runs : List NameRun) (name : ItemName) : List NameRun :=
  match runs with
  | run :: rest =>
    if run.next = name then { run with count := run.count + 1 } :: rest
    else { first := name, count := 1 } :: run :: rest
  | [] => [{ first := name, count := 1 }]

end NameRun

namespace Construction

/-- Hands a blueprint one capacity after the other. A capacity of zero is none. -/
def startingAtLast {α : Type} (plan : Blueprint α) : List Nat → Option (Blueprint α)
  | [] => some plan
  | count :: counts =>
    if h : 0 < count then startingAtLast (plan.startingAt ⟨count, h⟩) counts else none

def blueprint? : Construction → Option (Blueprint Collaborator)
  | .plain allocator => some { allocator }
  | .planned before allocator after => do
    let plan ← startingAtLast { allocator := {} } before
    let plan := match allocator with
      | some allocator => plan.servedBy allocator
      | none => plan
    startingAtLast plan after

end Construction

namespace Session

/-- The world with the heap set to refuse a request. -/
def armed (session : Session) (failIn : Option Nat) : World Host :=
  (session.updateHost (·.arm failIn)).world

def disarm (session : Session) : Session :=
  session.updateHost (·.arm none)

def create (session : Session) (kind : Kind) (construction : Construction)
    (failIn : Option Nat) : Response :=
  match construction.blueprint? with
  | none => session.refuse .zeroCapacity
  | some plan =>
    let reply := plan.build Host.supply kind.itemType (session.armed failIn)
    let session := { session with world := reply.world }.disarm
    match reply.result with
    | .error stop => { session, answer := .error (.stop stop), notes := .ofReply kind reply }
    | .ok pool =>
      { session := { session with members := session.members.push (some { kind, pool }) }
        answer := .ok (.number session.members.size)
        notes := .ofReply kind reply }

/-- Gives a handle to an item that a pool handed out. -/
def handOut (session : Session) (number : Nat) (member : Member)
    (turn : Turn member.kind.itemType Collaborator Host Nat) (filled : Bool) : Response :=
  let session := (session.settle number member turn).disarm
  let notes := .ofReply member.kind turn.toReply
  match turn.result with
  | .error stop => { session, answer := .error (.stop stop), notes }
  | .ok item =>
    let (name, member) :=
      { member with pool := turn.pool : Member }.nameItem session.world.supply item
    let session := session.setMember number member
    { session := { session with
        handles := session.handles.push { pool := number, item, name, status := .live filled } }
      answer := .ok (.item name)
      notes }

def acquire (session : Session) (number : Nat) (failIn : Option Nat) : Response :=
  session.ofUntainted number fun member =>
    session.handOut number member
      (member.pool.acquire Host.supply (session.armed failIn)) false

/-- Takes items from a pool, as many as can be had of the given number, and adds their names to the
runs, and what is noted to the notes. A fault leaves no answer, whatever was taken before. -/
def acquireRuns (number : Argument Nat) (failIn : Option Nat) :
    (count : Nat) → List NameRun → Notes → Session → Response
  | 0, runs, notes, session => { session, answer := .ok (.runs runs.reverse none), notes }
  | count + 1, runs, notes, session =>
    match session.ofGiven number (session.acquire · failIn) with
    | ⟨session, .ok (.item name), added⟩ =>
      acquireRuns number failIn count (NameRun.extend runs name) (notes ++ added) session
    | ⟨session, .error (.stop (.fault fault)), added⟩ =>
      { session, answer := .error (.stop (.fault fault)), notes := notes ++ added }
    | ⟨session, .error trouble, added⟩ =>
      { session, answer := .ok (.runs runs.reverse (some trouble)), notes := notes ++ added }
    | ⟨session, .ok answer, added⟩ => { session, answer := .ok answer, notes := notes ++ added }

/-- Takes several items from a pool, which is asked for anew with each of them. -/
def acquireMany (session : Session) (number : Argument Nat) (count : Nat)
    (failIn : Option Nat) : Response :=
  acquireRuns number failIn count [] {} session

def insert (session : Session) (number : Nat) (datum : Argument Datum) (failIn : Option Nat) :
    Response :=
  session.ofMember number fun member =>
    session.ofAdmitted member.kind datum fun datum =>
      if member.tainted then
        session.refuse .tainted
      else
        let (value, archive) := member.kind.encode session.archive datum
        { session with archive }.handOut number member
          (member.pool.insert Host.supply value (session.armed failIn)) true

def grow (session : Session) (number : Nat) (capacity : Argument Nat) (failIn : Option Nat) :
    Response :=
  session.ofUntainted number fun member =>
    session.ofGiven capacity fun capacity =>
      if h : 0 < capacity then
        let response := session.conclude number member
          (member.pool.grow Host.supply ⟨capacity, h⟩ (session.armed failIn))
        { response with session := response.session.disarm }
      else
        session.refuse .zeroCapacity

end Session

end SlabPool
