import SlabPool.Slab

/-!
# The list of slabs of a pool

A pool lists its slabs in the order in which they were allocated. The list occupies storage of its
own, which is reserved ahead of need: room for four slabs at first, and twice the room whenever it
is used up. Reserved room is kept even if it turns out not to be needed.
-/

namespace SlabPool

/-- The slabs of a pool, oldest first, and the number of slabs there is room for. -/
structure SlabIndex (T : ItemType) where
  slabs : List (Slab T) := []
  reserved : Nat := 0

namespace SlabIndex

variable {T : ItemType} {α σ : Type}

/-- The bytes that the list takes for one slab. -/
def entrySize : Nat := 16

def entryAlign : Nat := 8

/-- The number of slabs there will be room for once the present room is used up. -/
def nextReserved (index : SlabIndex T) : Nat :=
  max 4 (2 * index.reserved)

/-- Makes sure that there is room for one more slab. The heap is asked only where there is none. -/
def reserve (S : Supply α σ) (index : SlabIndex T) (supply : σ) : Option (SlabIndex T) × σ :=
  if index.slabs.length < index.reserved then
    (some index, supply)
  else
    match S.reserve (entrySize * index.nextReserved) supply with
    | (true, supply) => (some { index with reserved := index.nextReserved }, supply)
    | (false, supply) => (none, supply)

def append (index : SlabIndex T) (slab : Slab T) : SlabIndex T :=
  { index with slabs := index.slabs ++ [slab] }

def capacities (index : SlabIndex T) : List Nat :=
  index.slabs.map (·.capacity.val)

def contains (index : SlabIndex T) (address : Nat) : Bool :=
  index.slabs.any (·.contains address)

/-- Making room does not touch the slabs. -/
theorem slabs_of_reserve {S : Supply α σ} {index reserved : SlabIndex T} {supply : σ}
    (h : (index.reserve S supply).1 = some reserved) : reserved.slabs = index.slabs := by
  unfold reserve at h
  split at h
  · simp_all
  · split at h <;> simp_all
    simp [← h]

@[simp] theorem capacities_append (index : SlabIndex T) (slab : Slab T) :
    (index.append slab).capacities = index.capacities ++ [slab.capacity.val] := by
  simp [capacities, append]

end SlabIndex

end SlabPool
