import SlabPool.ItemType
import SlabPool.Supply

/-!
# Slabs

A slab is one block of storage, cut into slots for items of one shape that lie in a row. It is known
by the address of its first slot and the number of slots: its size and alignment follow from that
number and the shape of the items, and are computed anew whenever they are needed.

Main statement: `contains_iff`. The test whether an address is that of a slot works by a remainder
and a wrapping product, and is exact all the same.
-/

namespace SlabPool

/-- A number of slots. No slab is without slots. -/
abbrev Capacity := { count : Nat // 0 < count }

/-- A row of slots for items of the shape `T`. -/
structure Slab (T : Shape) where
  /-- The address of the first slot. -/
  first : Nat
  capacity : Capacity
  deriving DecidableEq, Repr

namespace Slab

variable {T : Shape} {α σ : Type}

/-- The layout of a slab with the given number of slots. Where there is none, the failure names the
size that the slots would take, as far as it is a word. -/
def layout (T : Shape) (capacity : Capacity) : Except AllocationFailure Layout :=
  match Layout.array? T.size T.align capacity.val with
  | some layout => .ok layout
  | none => .error ⟨Word.saturatingMul T.size capacity.val, T.align⟩

/-- Allocates a slab. An impossible layout is refused without asking for a block. -/
def allocate (S : Supply α σ) (allocator : α) (T : Shape) (capacity : Capacity) (supply : σ) :
    Except Stop (Slab T) × σ :=
  match layout T capacity with
  | .error failure => (.error (.refused failure), supply)
  | .ok layout =>
    match S.allocate allocator layout supply with
    | (.error stop, supply) => (.error stop, supply)
    | (.ok block, supply) => (.ok ⟨block, capacity⟩, supply)

def release (S : Supply α σ) (allocator : α) (slab : Slab T) (supply : σ) :
    Except Fault Unit × σ :=
  match layout T slab.capacity with
  | .error _ => (.error .layoutLost, supply)
  | .ok layout => S.release allocator slab.first layout supply

/-- Gives the blocks of slabs back, one after the other. A fault ends it, and the slabs that were
still to come keep their blocks. -/
def releaseAll (S : Supply α σ) (allocator : α) : List (Slab T) → σ → Except Fault Unit × σ
  | [], supply => (.ok (), supply)
  | slab :: slabs, supply =>
    match slab.release S allocator supply with
    | (.error fault, supply) => (.error fault, supply)
    | (.ok (), supply) => releaseAll S allocator slabs supply

def slot (slab : Slab T) (number : Nat) : Nat :=
  slab.first + number * T.size

def contains (slab : Slab T) (address : Nat) : Bool :=
  match Word.checkedSub address slab.first with
  | none => false
  | some offset =>
    offset < Word.wrappingMul T.size slab.capacity.val && offset % T.size == 0

theorem layout_eq_ok_iff {capacity : Capacity} {layout : Layout} :
    Slab.layout T capacity = .ok layout ↔
      T.size * capacity.val ≤ Layout.maxSize T.align ∧
        layout = ⟨T.size * capacity.val, T.align⟩ := by
  unfold Slab.layout
  split <;> rename_i h
  · rw [Layout.array?_eq_some_iff] at h
    grind
  · rw [Layout.array?_eq_none_iff] at h
    grind

/-- A slab with a layout is smaller than the address space, so its size does not wrap. -/
theorem size_lt_modulus {capacity : Capacity} {layout : Layout}
    (h : Slab.layout T capacity = .ok layout) : T.size * capacity.val < Word.modulus := by
  have hsize := (layout_eq_ok_iff.1 h).1
  unfold Layout.maxSize at hsize
  unfold Word.modulus
  omega

/-- The addresses a slab contains are those of its slots. -/
theorem contains_iff {slab : Slab T} (h : T.size * slab.capacity.val < Word.modulus)
    {address : Nat} :
    slab.contains address = true ↔
      ∃ number < slab.capacity.val, address = slab.slot number := by
  unfold contains slot
  split <;> rename_i hoffset
  · rw [Word.checkedSub_eq_none_iff] at hoffset
    simp only [Bool.false_eq_true, false_iff, not_exists, not_and]
    intro number _
    omega
  · rename_i offset
    obtain ⟨hle, rfl⟩ := Word.checkedSub_eq_some_iff.1 hoffset
    simp only [Word.wrappingMul_eq h, Bool.and_eq_true, decide_eq_true_eq, beq_iff_eq]
    constructor
    · rintro ⟨hlt, hmod⟩
      obtain ⟨number, rfl⟩ := Nat.dvd_of_mod_eq_zero hmod
      exact ⟨number, Nat.lt_of_mul_lt_mul_left hlt, by rw [Nat.mul_comm]⟩
    · rintro ⟨number, hlt, heq⟩
      obtain rfl : offset = number * T.size := by omega
      exact ⟨by rw [Nat.mul_comm]; exact Nat.mul_lt_mul_of_pos_left hlt T.size_pos,
        Nat.mul_mod_left ..⟩

end Slab

end SlabPool
