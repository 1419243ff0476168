import SlabPool.Pool.Check
import SlabPool.Pool.Ending
import SlabPool.Pool.Items
import SlabPool.Session.Command

/-!
# The state of a session

A session keeps the world, the pools that were made in it, and the handles that were given out. It
knows of each handle what a careful user of a pool has to know: whether the item is in use, and
whether there is a value in it. And it knows of each pool whether its free slots were misused, in
which case nothing more is taken from it until it is destroyed.
-/

namespace SlabPool

/-- What has become of an item that was handed out. -/
inductive Status where
  /-- It is in use; `filled` says whether there is a value in it. -/
  | live (filled : Bool)
  | released
  /-- It must not be used any more, for another reason. -/
  | dead
  deriving DecidableEq, Repr, Inhabited

def Status.isLive : Status → Bool
  | .live _ => true
  | _ => false

/-- An item that was handed out. -/
structure Handle where
  pool : Nat
  item : Nat
  name : ItemName
  status : Status
  deriving Inhabited

structure Member where
  kind : Kind
  pool : Pool kind.itemType Collaborator
  /-- Whether the free slots were misused. -/
  tainted : Bool := false
  /-- The places handed out so far, numbered in that order. -/
  numbers : Std.ExtTreeMap Nat Nat := ∅

structure Session where
  world : World Host := ⟨{}, {}⟩
  /-- All pools, in the order in which they were made; those that were dropped are gone. -/
  members : Array (Option Member) := #[]
  /-- All items that were handed out, in that order. -/
  handles : Array Handle := #[]
  archive : Archive := #[]

/-- The counts of a pool that are shown after a command. -/
structure Standing where
  acquired : Nat
  capacity : Nat
  numSlabs : Nat
  nextGrowth : Nat
  deriving DecidableEq, Repr

namespace Member

/-- The name of an item that is handed out, and the member with its place numbered. -/
def nameItem (member : Member) (host : Host) (item : Nat) : ItemName × Member :=
  let located := match member.pool.allocator.provider with
    | .heap => none
    | .recorder id => (host.ledger id).locate? member.kind.itemType.size item
  match located, member.numbers[item]? with
  | some (block, index), _ => (.place block index, member)
  | none, some n => (.number n, member)
  | none, none =>
    let n := member.numbers.size
    (.number n, { member with numbers := member.numbers.insert item n })

def standing (member : Member) : Standing where
  acquired := member.pool.acquired
  capacity := member.pool.capacity
  numSlabs := member.pool.numSlabs
  nextGrowth := member.pool.nextGrowth.val

end Member

namespace Session

/-- The pool with the given number, if it is there. -/
def member? (session : Session) (number : Nat) : Except Refusal Member :=
  match session.members[number]? with
  | some (some member) => .ok member
  | _ => .error .noPool

/-- The item with the given number and its pool, if the pool is there. -/
def handle? (session : Session) (number : Nat) : Except Refusal (Handle × Member) :=
  match session.handles[number]? with
  | none => .error .noHandle
  | some handle =>
    match session.member? handle.pool with
    | .ok member => .ok (handle, member)
    | .error _ => .error .notLive

/-- The item with the given number and its pool, if the item is in use. The truth value says whether
there is a value in it. -/
def live? (session : Session) (number : Nat) : Except Refusal (Handle × Bool × Member) :=
  match session.handle? number with
  | .error refusal => .error refusal
  | .ok (handle, member) =>
    match handle.status with
    | .live filled => .ok (handle, filled, member)
    | _ => .error .notLive

def setMember (session : Session) (number : Nat) (member : Member) : Session :=
  { session with members := session.members.setIfInBounds number (some member) }

def setStatus (session : Session) (number : Nat) (status : Status) : Session :=
  { session with handles := session.handles.modify number ({ · with status }) }

def updateHost (session : Session) (change : Host → Host) : Session :=
  { session with world := { session.world with supply := change session.world.supply } }

/-- Carries an operation on the pool of a member over into the session. -/
def settle {β : Type} (session : Session) (number : Nat) (member : Member)
    (turn : Turn member.kind.itemType Collaborator Host β) : Session :=
  { session.setMember number { member with pool := turn.pool } with world := turn.world }

def liveHandles (session : Session) (number : Nat) : Array Handle :=
  session.handles.filter fun handle => handle.pool == number && handle.status.isLive

def buryHandles (session : Session) (number : Nat) : Session :=
  { session with
    handles := session.handles.map fun handle =>
      if handle.pool = number then { handle with status := .dead } else handle }

def standing? (session : Session) (number : Nat) : Option Standing :=
  (session.member? number).toOption.map Member.standing

end Session

end SlabPool
