import Std.Data.ExtTreeMap

/-!
# Memory

Memory is a store of words. A word occupies a cell of eight bytes. An address is a natural number
that counts bytes and selects the cell it lies in; the library only uses addresses that are
multiples of eight. A cell that was never written reads as zero, which stands for whatever a fresh
block happens to hold.

Storage that nobody uses for a value holds *links*: the address of another piece of storage, or
zero where there is none.

The only law needed elsewhere is `read_write`: a write changes the cell it goes to and no other.
-/

namespace SlabPool

/-- The words written so far, by the number of their cell. -/
structure Memory where
  cells : Std.ExtTreeMap Nat Nat := ∅

namespace Memory

instance : Inhabited Memory := ⟨{}⟩

def read (memory : Memory) (address : Nat) : Nat :=
  memory.cells.getD (address / 8) 0

def write (memory : Memory) (address : Nat) (word : Nat) : Memory :=
  ⟨memory.cells.insert (address / 8) word⟩

theorem read_write (memory : Memory) (address other : Nat) (word : Nat) :
    (memory.write address word).read other =
      if address / 8 = other / 8 then word else memory.read other := by
  simp [read, write, Std.ExtTreeMap.getD_insert]

@[simp] theorem read_write_self (memory : Memory) (address : Nat) (word : Nat) :
    (memory.write address word).read address = word := by
  simp [read_write]

theorem read_write_of_ne {address other : Nat} (h : address / 8 ≠ other / 8)
    (memory : Memory) (word : Nat) :
    (memory.write address word).read other = memory.read other := by
  simp [read_write, h]

/-! ## Links -/

/-- The address that the link at `address` leads to. -/
def link (memory : Memory) (address : Nat) : Option Nat :=
  match memory.read address with
  | 0 => none
  | next => some next

def setLink (memory : Memory) (address : Nat) (next : Option Nat) : Memory :=
  memory.write address (next.getD 0)

theorem link_setLink_self (memory : Memory) (address : Nat) {next : Option Nat}
    (h : next ≠ some 0) : (memory.setLink address next).link address = next := by
  rcases next with _ | next
  · simp [link, setLink]
  · cases next <;> simp_all [link, setLink]

theorem link_setLink_of_ne {address other : Nat} (h : address / 8 ≠ other / 8)
    (memory : Memory) (next : Option Nat) :
    (memory.setLink address next).link other = memory.link other := by
  simp [link, setLink, read_write_of_ne h]

/-! ## Words in a row -/

/-- The words in `count` cells from `address` on. -/
def readRow (memory : Memory) (address : Nat) : Nat → List Nat
  | 0 => []
  | count + 1 => memory.read address :: memory.readRow (address + 8) count

/-- Writes words into the cells from `address` on. -/
def writeRow (memory : Memory) (address : Nat) : List Nat → Memory
  | [] => memory
  | word :: words => (memory.write address word).writeRow (address + 8) words

@[simp] theorem length_readRow (memory : Memory) (address : Nat) (count : Nat) :
    (memory.readRow address count).length = count := by
  induction count generalizing address with
  | zero => rfl
  | succ count ih => simp [readRow, ih]

/-- Words written in a row leave the cells before and after them as they were. -/
theorem read_writeRow_of_outside {memory : Memory} {address other : Nat} {words : List Nat}
    (h : other / 8 < address / 8 ∨ address / 8 + words.length ≤ other / 8) :
    (memory.writeRow address words).read other = memory.read other := by
  induction words generalizing memory address with
  | nil => rfl
  | cons word words ih =>
    simp only [List.length_cons] at h
    refine (ih ?_).trans (read_write_of_ne ?_ memory word) <;> omega

theorem readRow_writeRow (memory : Memory) (address : Nat) (words : List Nat) :
    (memory.writeRow address words).readRow address words.length = words := by
  induction words generalizing memory address with
  | nil => rfl
  | cons word words ih =>
    rw [List.length_cons, readRow, writeRow, ih]
    refine congrArg (· :: words) ((read_writeRow_of_outside ?_).trans (read_write_self ..))
    omega

end Memory

end SlabPool
