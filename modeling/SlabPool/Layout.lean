import SlabPool.Failure
import SlabPool.Word

/-!
# Layouts of blocks

A layout is the size and the alignment of a block of storage. A block has to lie in the lower half
of the address space even after its size is rounded up to its alignment, which leaves the sizes up
to `2 ^ 63 - align`; an alignment is a power of two.
-/

namespace SlabPool

structure Layout where
  size : Nat
  align : Nat
  deriving DecidableEq, Repr, Inhabited

namespace Layout

/-- The largest size a block of alignment `align` can have. -/
def maxSize (align : Nat) : Nat :=
  9223372036854775808 - align

/-- The layout of the given size and alignment, if there is one. -/
def ofSizeAlign? (size align : Nat) : Option Layout :=
  if align.isPowerOfTwo ∧ size ≤ maxSize align then some ⟨size, align⟩ else none

/-- The layout of `count` parts in a row, each of `size` bytes and of an alignment that is a power
of two and divides the size, if there is one. -/
def array? (size align count : Nat) : Option Layout :=
  if size * count ≤ maxSize align then some ⟨size * count, align⟩ else none

def failure (layout : Layout) : AllocationFailure :=
  ⟨layout.size, layout.align⟩

theorem array?_eq_some_iff {size align count : Nat} {layout : Layout} :
    array? size align count = some layout ↔
      size * count ≤ maxSize align ∧ layout = ⟨size * count, align⟩ := by
  unfold array?
  split <;> grind

theorem array?_eq_none_iff {size align count : Nat} :
    array? size align count = none ↔ maxSize align < size * count := by
  simp [array?]

end Layout

end SlabPool
