import SlabPool.Failure

/-!
# Events

A pool reports when the set of its slabs changes and when a change of it fails. An event is kept as
what happened; its level, its message and its named parts are derived here.
-/

namespace SlabPool

/-- How much an event is worth to a reader. -/
inductive Level where
  | trace
  | debug
  deriving DecidableEq, Repr

/-- What happened to the slabs of a pool of `item`. -/
inductive Event where
  /-- A slab was added, and there are `numSlabs` slabs now. -/
  | slabAllocated (item : String) (capacity numSlabs : Nat)
  /-- A slab could not be had. -/
  | slabRefused (item : String) (capacity : Nat) (failure : AllocationFailure)
  /-- There was no room to list so many slabs. -/
  | indexRefused (item : String) (requested : Nat)
  /-- All slabs were given back; there were `numSlabs` of them. -/
  | slabsReleased (item : String) (numSlabs : Nat)
  deriving DecidableEq, Repr

namespace Event

inductive Part where
  | number (n : Nat)
  | text (s : String)
  deriving DecidableEq, Repr

/-- Success is worth less than failure, and the end of all slabs counts as much as a failure. -/
def level : Event → Level
  | slabAllocated .. => .trace
  | slabRefused .. | indexRefused .. | slabsReleased .. => .debug

def message : Event → String
  | slabAllocated .. => "allocated slab for pool"
  | slabRefused .. => "failed to allocate slab for pool"
  | indexRefused .. => "failed to grow slab index of pool"
  | slabsReleased .. => "released all slabs of pool"

def parts : Event → List (String × Part)
  | slabAllocated item capacity numSlabs =>
    [("item_type", .text item), ("capacity", .number capacity), ("slab_count", .number numSlabs)]
  | slabRefused item capacity failure =>
    [("item_type", .text item), ("capacity", .number capacity), ("error", .text failure.message)]
  | indexRefused item requested =>
    [("item_type", .text item), ("requested", .number requested)]
  | slabsReleased item numSlabs =>
    [("item_type", .text item), ("slab_count", .number numSlabs)]

end Event

/-- An event as a reader of the log gets it. -/
structure LogLine where
  level : Level
  message : String
  parts : List (String × Event.Part)
  deriving DecidableEq, Repr

def Event.line (event : Event) : LogLine :=
  ⟨event.level, event.message, event.parts⟩

end SlabPool
