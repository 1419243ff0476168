import SlabPool.Pool.Blueprint

/-!
# Pools and blueprints in words

A pool is described by its type and its counts. The type is that of its items, followed by that of
its allocator unless it is the usual one. What there is to say of an allocator is the allocator's
own matter.
-/

namespace SlabPool

structure AllocatorText where
  typeName : Option String
  value : Text.Record

namespace Pool

variable {T : ItemType} {α : Type}

def typeName (T : ItemType) (allocator : AllocatorText) : String :=
  "fixed_pool::pool::FixedPool<" ++ ", ".intercalate (T.name :: allocator.typeName.toList) ++ ">"

/-- A pool in words. Not all of it is told. -/
def describe (pool : Pool T α) (text : α → AllocatorText) : Except Fault Text.Record :=
  match pool.checkedCapacity with
  | .error fault => .error fault
  | .ok capacity =>
    .ok (.fields (typeName T (text pool.allocator))
      [("slab_count", .number pool.numSlabs),
        ("capacity", .number capacity),
        ("acquired_count", .number pool.acquired),
        ("has_free_items", .truth pool.hasFree),
        ("allocator", (text pool.allocator).value)] false)

variable {pool : Pool T α} {capacity : Nat}

end Pool

/-- A blueprint for a pool of items of type `T` in words. -/
def Blueprint.describe {α : Type} (T : ItemType) (plan : Blueprint α)
    (text : α → AllocatorText) : Text.Record :=
  .fields "FixedPoolBuilder"
    [("item_type", .word T.name),
      ("initial_capacity", .optional (plan.initial.map fun count => .number count.val)),
      ("allocator", (text plan.allocator).value)] true

end SlabPool
