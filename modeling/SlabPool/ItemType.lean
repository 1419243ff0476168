import SlabPool.Memory

/-!
# Types of items

All that a pool has to know of the type of its items: how large one is, how it has to be aligned,
in how many words a value of it is kept, and what is to be done when a value comes to its end.

Items of any size can lie in a row: the size of a type is a multiple of its alignment, so that they
are all aligned. `Shape` is what a row has to know of its items. The items of a pool must also be
able to hold a link while they are free, so they are at least as large and as aligned as a word.
-/

namespace SlabPool

/-- A value as it is kept in storage: the words from the start of the item on. -/
abbrev Image := List Nat

/-- How items lie in storage. -/
structure Shape where
  /-- The bytes from the start of one item to the start of the next. -/
  size : Nat
  /-- What the address of an item is a multiple of. -/
  align : Nat
  align_isPowerOfTwo : align.isPowerOfTwo := by decide
  align_dvd_size : align ∣ size := by decide
  size_pos : 0 < size := by decide

/-- The type of the items of a pool. -/
structure ItemType extends Shape where
  name : String
  /-- The number of words in which a value is kept. -/
  width : Nat
  /-- What happens at the end of a value: nothing, or a fault with the given message. -/
  finalise : Image → Option String := fun _ => none
  eight_le_align : 8 ≤ align := by decide
  width_le : 8 * width ≤ size := by decide

instance : Coe ItemType Shape := ⟨ItemType.toShape⟩

namespace ItemType

variable (T : ItemType)

theorem align_le_size : T.align ≤ T.size :=
  Nat.le_of_dvd T.size_pos T.align_dvd_size

theorem eight_le_size : 8 ≤ T.size :=
  Nat.le_trans T.eight_le_align T.align_le_size

/-- A power of two that is not below eight is a multiple of eight. -/
theorem eight_dvd_align : 8 ∣ T.align := by
  obtain ⟨k, hk⟩ := T.align_isPowerOfTwo
  have h : 2 ^ 3 ≤ 2 ^ k := hk ▸ T.eight_le_align
  exact hk ▸ Nat.pow_dvd_pow 2 ((Nat.pow_le_pow_iff_right (by decide)).1 h)

theorem eight_dvd_size : 8 ∣ T.size :=
  Nat.dvd_trans T.eight_dvd_align T.align_dvd_size

/-! ## Values -/

/-- A value of an item type, as it is kept in storage. -/
abbrev Value := { image : Image // image.length = T.width }

/-- The value kept in an item. -/
def load (memory : Memory) (item : Nat) : T.Value :=
  ⟨memory.readRow item T.width, memory.length_readRow item T.width⟩

variable {T}

/-- Puts a value into an item. -/
def store (memory : Memory) (item : Nat) (value : T.Value) : Memory :=
  memory.writeRow item value.val

/-- A value is loaded as it was stored. -/
theorem load_store (memory : Memory) (item : Nat) (value : T.Value) :
    T.load (store memory item value) item = value := by
  obtain ⟨image, himage⟩ := value
  refine Subtype.ext ?_
  show (memory.writeRow item image).readRow item T.width = image
  rw [← himage]
  exact Memory.readRow_writeRow memory item image

end ItemType

end SlabPool
