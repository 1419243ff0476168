import SlabPool.Pool.Basic

/-!
# Adding a slab

Room to list the slab is made first, then its block is allocated, then its slots are put in front
of the free slots, lowest first. Nothing can fail once there is a block, so a failure leaves the
slabs, the free slots and the memory as they were; at most there is more room to list slabs.
-/

namespace SlabPool.Pool

variable {T : ItemType} {α σ : Type}

def indexFailure (requested : Nat) : AllocationFailure :=
  ⟨Word.saturatingMul SlabIndex.entrySize requested, SlabIndex.entryAlign⟩

/-- Adds a slab with the given number of slots, all of them free. -/
def grow (S : Supply α σ) (pool : Pool T α) (capacity : Capacity) (world : World σ) :
    Turn T α σ Unit :=
  match pool.index.reserve S world.supply with
  | (none, supply) =>
    let requested := Word.saturatingAdd pool.numSlabs 1
    { result := .error (.refused (indexFailure requested))
      events := [.indexRefused T.name requested]
      world := { world with supply }
      pool }
  | (some index, supply) =>
    match Slab.allocate S pool.allocator T capacity supply with
    | (.error (.refused failure), supply) =>
      { result := .error (.refused failure)
        events := [.slabRefused T.name capacity.val failure]
        world := { world with supply }
        pool := { pool with index } }
    | (.error (.fault fault), supply) =>
      { result := .error (.fault fault)
        world := { world with supply }
        pool := { pool with index } }
    | (.ok slab, supply) =>
      match pool.free.pushRow slab.first T.size slab.capacity.val world.memory with
      | .error fault =>
        { result := .error (.fault fault)
          world := { world with supply }
          pool := { pool with index } }
      | .ok (free, memory) =>
        let index := index.append slab
        { result := .ok ()
          events := [.slabAllocated T.name capacity.val index.slabs.length]
          world := { memory, supply }
          pool := { pool with index, free } }

end SlabPool.Pool
