import SlabPool.Pool.Growth

/-!
# Blueprints

A blueprint says how a pool is to be made: with which allocator, and with how many slots at once, if
with any. The last word on either counts. A pool that cannot be given its first slab is not made,
and nothing of it remains.
-/

namespace SlabPool

/-- How a pool is to be made. -/
structure Blueprint (α : Type) where
  allocator : α
  initial : Option Capacity := none

namespace Blueprint

variable {α σ : Type}

/-- Asks for so many slots at once. -/
def startingAt (plan : Blueprint α) (capacity : Capacity) : Blueprint α :=
  { plan with initial := some capacity }

/-- Exchanges the allocator and keeps the capacity. -/
def servedBy {β : Type} (plan : Blueprint α) (allocator : β) : Blueprint β :=
  { allocator, initial := plan.initial }

def build (S : Supply α σ) (T : ItemType) (plan : Blueprint α) (world : World σ) :
    Reply σ (Pool T α) :=
  let pool : Pool T α := { allocator := plan.allocator }
  match plan.initial with
  | none => { result := .ok pool, world }
  | some capacity =>
    let growth := pool.grow S capacity world
    { growth with result := growth.result.map fun () => growth.pool }

end Blueprint

end SlabPool
