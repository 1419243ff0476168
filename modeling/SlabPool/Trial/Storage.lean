import SlabPool.Host.Collaborator
import SlabPool.Session.HandingOut

/-!
# Slabs and blocks by themselves

A slab is allocated from a recording allocator, looked at, and given back; a block is allocated from
the heap, filled and read back; the description of a blueprint, and the texts of a failure, are
taken without anything being allocated.
-/

namespace SlabPool.Trial

/-! ## Slabs -/

structure SlabReport where
  capacity : Nat
  layout : Layout
  /-- Whether the address of the first slot is as aligned as it has to be. -/
  aligned : Bool
  /-- For each place that was asked for, whether it is that of a slot. -/
  inside : List Bool
  /-- The number of blocks in use before and after the slab was given back. -/
  live : Nat × Nat
  deriving Repr

/-- An address moved by an offset. It stays a word, and does not become zero. -/
def shift (address : Nat) (offset : Int) : Nat :=
  (max 1 (min (address + offset) Word.max)).toNat

/-- Allocates a slab from a recording allocator, looks at places with the given offsets from its
first slot, and gives it back. -/
def slab (T : ItemType) (capacity : Nat) (exhausted : Bool) (offsets : List Int) :
    Except Trouble SlabReport :=
  if h : 0 < capacity then
    let allocator : Collaborator := { provider := .recorder 0 }
    let host := ({} : Host).setLedger 0 { settings := { exhausted } }
    match Slab.allocate Host.supply allocator T ⟨capacity, h⟩ host with
    | (.error stop, _) => .error (.stop stop)
    | (.ok slab, host) =>
      match slab.release Host.supply allocator host with
      | (.error fault, _) => .error (.stop (.fault fault))
      | (.ok (), after) =>
        .ok {
          capacity := slab.capacity.val
          layout := ((host.ledger 0).blocks.back?.map (·.layout)).getD default
          aligned := slab.first % T.align == 0
          inside := offsets.map fun offset => slab.contains (shift slab.first offset)
          live := ((host.ledger 0).live.length, (after.ledger 0).live.length) }
  else
    .error (.refusal .zeroCapacity)

/-! ## Blocks -/

structure BlockReport where
  aligned : Bool
  /-- The sum of its bytes, each of which was set to the remainder of its position by 256. -/
  sum : Nat
  deriving Repr

/-- The sum of the numbers below `count`, each taken as its remainder by 256. -/
def byteRampSum (count : Nat) : Nat :=
  count / 256 * 32640 + count % 256 * (count % 256 - 1) / 2

/-- Allocates a block from the heap, fills it and reads it back. -/
def block (size align : Nat) (failIn : Option Nat) : Except Trouble BlockReport :=
  match Layout.ofSizeAlign? size align with
  | none => .error (.refusal .noLayout)
  | some layout =>
    match Host.supply.allocate {} layout (({} : Host).arm failIn) with
    | (.error stop, _) => .error (.stop stop)
    | (.ok address, _) =>
      .ok { aligned := address % layout.align == 0, sum := byteRampSum layout.size }

/-! ## Texts -/

def blueprint (T : ItemType) (construction : Construction) (pretty : Bool) :
    Except Trouble String :=
  match construction.blueprint? with
  | none => .error (.refusal .zeroCapacity)
  | some plan => .ok ((plan.describe T Collaborator.text).render pretty)

/-- A failure to allocate a block of the given size and alignment. Unless it is taken as it comes,
there has to be such a layout. -/
def failure (size align : Nat) (asItComes : Bool) : Except Trouble AllocationFailure :=
  if asItComes then
    .ok ⟨size, align⟩
  else
    match Layout.ofSizeAlign? size align with
    | none => .error (.refusal .noLayout)
    | some layout => .ok layout.failure

end SlabPool.Trial
