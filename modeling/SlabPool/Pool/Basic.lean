import SlabPool.Event
import SlabPool.FreeList
import SlabPool.SlabIndex

/-!
# Pools

A pool hands out slots for items of one type and takes them back. It keeps its slabs, the list of
the slots that are free, and the number of slots it has handed out so far. It does not keep which
slots are in use: that is for its callers to know.

An operation on a pool answers with a `Turn`: what came of it, the events it reported, the values
it brought to their end, and the world and the pool afterwards. Nothing else is changed.
-/

namespace SlabPool

/-- A pool of slots for items of type `T`, with an allocator in `α`. -/
structure Pool (T : ItemType) (α : Type) where
  allocator : α
  index : SlabIndex T := {}
  /-- The number of slots handed out since the pool was made or last destroyed. Slots taken back do
  not lower it. -/
  acquired : Nat := 0
  free : FreeList := {}

/-- What an operation answers that leaves no pool behind. -/
structure Reply (σ β : Type) where
  /-- The answer, or why there is none. -/
  result : Except Stop β
  /-- What was reported, in order. -/
  events : List Event := []
  /-- The values that came to their end, in order. -/
  destroyed : List Image := []
  world : World σ

/-- What an operation on a pool answers. -/
structure Turn (T : ItemType) (α σ β : Type) extends Reply σ β where
  pool : Pool T α

namespace Pool

variable {T : ItemType} {α : Type}

/-- The least number of slots of a slab that is added because a slot is needed. -/
def minGrowth : Nat := 8

def numSlabs (pool : Pool T α) : Nat :=
  pool.index.slabs.length

def capacities (pool : Pool T α) : List Nat :=
  pool.index.capacities

/-- The number of slots, free or not. -/
def capacity (pool : Pool T α) : Nat :=
  Word.total pool.capacities

/-- The number of slots, if it is a word. -/
def checkedCapacity (pool : Pool T α) : Except Fault Nat :=
  match Word.checkedSum pool.capacities with
  | some capacity => .ok capacity
  | none => .error .capacityOverflow

/-- The number of slots of the next slab, should a slot be needed and none be free: as many as were
handed out so far, but not too few. -/
def nextGrowth (pool : Pool T α) : Capacity :=
  ⟨max minGrowth pool.acquired, Nat.le_trans (by decide) (Nat.le_max_left ..)⟩

def hasFree (pool : Pool T α) : Bool :=
  !pool.free.isEmpty

@[simp] theorem nextGrowth_val (pool : Pool T α) :
    pool.nextGrowth.val = max minGrowth pool.acquired := rfl

theorem checkedCapacity_eq_ok_iff {pool : Pool T α} {capacity : Nat} :
    pool.checkedCapacity = .ok capacity ↔ pool.capacity = capacity ∧ capacity < Word.modulus := by
  unfold checkedCapacity Pool.capacity
  rw [Word.checkedSum_eq]
  by_cases h : Word.total pool.capacities < Word.modulus
  · grind
  · grind

end Pool

end SlabPool
