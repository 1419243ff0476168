import SlabPool.Host.Ledger
import SlabPool.Pool.Describe

/-!
# The surroundings of the pools of a session

A host consists of a heap and of any number of recording allocators, told apart by a number. The
allocator of a pool is a *collaborator*: the heap itself or one of the recording allocators, held
either as it is or by reference. A reference only changes the name of the type: it answers as the
allocator behind it does.
-/

namespace SlabPool

inductive Provider where
  | heap
  | recorder (id : Nat)
  deriving DecidableEq, Repr, Inhabited

/-- The allocator of a pool in a session. -/
structure Collaborator where
  provider : Provider := .heap
  byReference : Bool := false
  deriving DecidableEq, Repr, Inhabited

namespace Collaborator

def typeName (collaborator : Collaborator) : String :=
  let provider := match collaborator.provider with
    | .heap => "fixed_pool::allocator::SystemAllocator"
    | .recorder _ => "fixed_pool::driver::Tracking"
  if collaborator.byReference then "&" ++ provider else provider

/-- The collaborator in words. The heap itself is the usual allocator. -/
def text (collaborator : Collaborator) : AllocatorText where
  typeName := if collaborator = {} then none else some collaborator.typeName
  value := match collaborator.provider with
    | .heap => .word "SystemAllocator"
    | .recorder id => .fields "Tracking" [("id", .number id)] true

end Collaborator

/-- A heap and the recording allocators that take their blocks from it. -/
structure Host where
  heap : Heap := {}
  ledgers : Std.ExtTreeMap Nat Ledger := ∅

namespace Host

instance : Inhabited Host := ⟨{}⟩

/-- What the recording allocator with the given number knows. One that was never asked knows
nothing. -/
def ledger (host : Host) (id : Nat) : Ledger :=
  host.ledgers.getD id {}

def setLedger (host : Host) (id : Nat) (ledger : Ledger) : Host :=
  { host with ledgers := host.ledgers.insert id ledger }

/-- Sets the heap to refuse one request after so many others, or none. -/
def arm (host : Host) (failIn : Option Nat) : Host :=
  { host with heap := { host.heap with failIn } }

/-- Room for the list of slabs comes from the heap. -/
def reserve (bytes : Nat) (host : Host) : Bool × Host :=
  let (granted, heap) := host.heap.request bytes
  (granted, { host with heap })

/-- A block comes from the heap, by way of the recording allocator if there is one. -/
def allocate (collaborator : Collaborator) (layout : Layout) (host : Host) :
    Except Stop Nat × Host :=
  match collaborator.provider with
  | .heap =>
    let (result, heap) := host.heap.allocate layout
    (result, { host with heap })
  | .recorder id =>
    let (result, ledger, heap) := (host.ledger id).allocate layout host.heap
    (result, { host with heap }.setLedger id ledger)

/-- The heap does not mind blocks that come back. -/
def release (collaborator : Collaborator) (block : Nat) (_layout : Layout) (host : Host) :
    Except Fault Unit × Host :=
  match collaborator.provider with
  | .heap => (.ok (), host)
  | .recorder id =>
    let (result, ledger) := (host.ledger id).release block
    (result, host.setLedger id ledger)

def supply : Supply Collaborator Host :=
  { reserve, allocate, release }

end Host

end SlabPool
