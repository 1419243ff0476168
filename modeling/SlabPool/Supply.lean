import SlabPool.Layout
import SlabPool.Memory

/-!
# Where storage comes from

A pool owns no storage of its own. It asks its surroundings for two things: for room in the list of
its slabs, which comes from the heap, and for blocks, which come from the allocator the pool was
made with. Both can be refused, and an allocator may raise a fault. What a pool hands back is blocks
only.

A *supply* is all of that as a pool sees it. The state `σ` of the surroundings can be anything; the
allocator of a pool is a value of type `α`, by which several allocators are told apart.
-/

namespace SlabPool

/-- The answers that pools with allocators in `α` get from surroundings with states in `σ`. -/
structure Supply (α σ : Type) where
  /-- Whether the heap grants so many bytes for the list of slabs. -/
  reserve : (bytes : Nat) → σ → Bool × σ
  /-- A block of the given layout, by its address. -/
  allocate : α → Layout → σ → Except Stop Nat × σ
  /-- Takes a block back, with the layout it was allocated with. -/
  release : α → (block : Nat) → Layout → σ → Except Fault Unit × σ

/-- What the operations of all pools share: the memory and the state of the surroundings. -/
structure World (σ : Type) where
  memory : Memory
  supply : σ

end SlabPool
