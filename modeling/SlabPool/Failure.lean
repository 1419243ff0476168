import SlabPool.Text.Record

/-!
# How an operation can end without an answer

An operation on a pool stops short in one of two ways. It is *refused* when storage was asked for
and not given: that is an ordinary answer, which names the size and the alignment of the block that
could not be had. Or it runs into a *fault*: a condition that callers are expected to exclude, or
one raised by a collaborator of the pool.

Each cause is a constructor of its own. The wording is settled here once, by the functions
`message`.
-/

namespace SlabPool

structure AllocationFailure where
  size : Nat
  align : Nat
  deriving DecidableEq, Repr, Inhabited

namespace AllocationFailure

def message (failure : AllocationFailure) : String :=
  "failed to allocate " ++ toString failure.size ++ " bytes with alignment "
    ++ toString failure.align

def describe (failure : AllocationFailure) : Text.Record :=
  .fields "AllocationFailure"
    [("size", .number failure.size), ("align", .number failure.align)] true

end AllocationFailure

/-- A condition that no correct use of a pool meets, or that a collaborator raised. -/
inductive Fault where
  /-- The free list was empty although a slab had just been added to it. -/
  | emptyAfterGrowth
  /-- The count of acquisitions would leave the words. -/
  | countExhausted
  /-- A run of no items was to be put on a free list. -/
  | emptyRun
  /-- The layout of a slab that exists could not be computed again. -/
  | layoutLost
  /-- A block of no bytes was asked for. -/
  | emptyLayout
  /-- The capacities of the slabs of a pool add up to more than a word. -/
  | capacityOverflow
  /-- The free list of a pool of `item` leads to an address that is no slot of the pool. -/
  | foreignEntry (item : String) (address : Nat)
  /-- The free list of a pool of `item` goes on after as many entries as the pool has slots. -/
  | endlessList (item : String) (capacity : Nat)
  /-- Raised outside the pool: by its allocator, or by the finaliser of an item. -/
  | raised (message : String)
  deriving DecidableEq, Repr, Inhabited

namespace Fault

/-- The fault in a sentence. An address differs between two runs that are otherwise alike, so its
text is left to the caller. -/
def message (address : Nat → String) : Fault → String
  | emptyAfterGrowth => "guarded by the slab we just added when the free list was empty"
  | countExhausted =>
    "every acquisition needs its own item slot, so this cannot exceed usize::MAX"
  | emptyRun => "guarded by NonZero count"
  | layoutLost => "layout was already validated when the slab was allocated"
  | emptyLayout => "slab layouts are never zero-sized because items must fit a pointer"
  | capacityOverflow => "attempt to add with overflow"
  | foreignEntry item entry =>
    "free list of pool of " ++ item ++ " links to " ++ address entry
      ++ ", which is not an item of this pool"
  | endlessList item capacity =>
    "free list of pool of " ++ item ++ " has more entries than the pool has capacity ("
      ++ toString capacity ++ "), so it contains a cycle (was an item released twice?)"
  | raised message => message

end Fault

/-- Why an operation gave no answer. -/
inductive Stop where
  | refused (failure : AllocationFailure)
  | fault (fault : Fault)
  deriving DecidableEq, Repr, Inhabited

end SlabPool
