import SlabPool.Pool.Basic

/-!
# Giving all slabs back

A pool gives its slabs back all at once: when it is destroyed, after which it is as if newly made,
and when it is dropped. In both cases the free slots are forgotten before the first block is given
back and the slabs are given back in the order in which they were allocated. Values in slots do not
come to their end.

A fault raised by the allocator ends this early. No slab is left in the pool then either, so that no
block can be given back twice; the blocks that were still to come are never given back.
-/

namespace SlabPool.Pool

variable {T : ItemType} {α σ : Type}

/-- The pool without slabs and without free slots. Room to list slabs and the number of slots
handed out stay. -/
def withoutSlabs (pool : Pool T α) : Pool T α :=
  { pool with free := {}, index := { pool.index with slabs := [] } }

/-- Gives all slabs back and starts anew. -/
def destroy (S : Supply α σ) (pool : Pool T α) (world : World σ) : Turn T α σ Unit :=
  match Slab.releaseAll S pool.allocator pool.index.slabs world.supply with
  | (.error fault, supply) =>
    { result := .error (.fault fault)
      world := { world with supply }
      pool := pool.withoutSlabs }
  | (.ok (), supply) =>
    { result := .ok ()
      events := [.slabsReleased T.name pool.numSlabs]
      world := { world with supply }
      pool := { allocator := pool.allocator } }

/-- Gives all slabs back and the pool up. This is not reported. -/
def drop (S : Supply α σ) (pool : Pool T α) (world : World σ) : Reply σ Unit :=
  match Slab.releaseAll S pool.allocator pool.index.slabs world.supply with
  | (.error fault, supply) =>
    { result := .error (.fault fault), world := { world with supply } }
  | (.ok (), supply) =>
    { result := .ok (), world := { world with supply } }

end SlabPool.Pool
