import SlabPool.FreeList
import SlabPool.ItemType
import SlabPool.Session.Command

/-!
# A free list by itself

A row of slots and a free list that may hold any of them. Slots are named by their number. Putting a
slot on the list while it is on the list already is a misuse: it spoils the links, so nothing is
taken off the list any more until it is cleared.
-/

namespace SlabPool.Trial

/-- A row of slots for items of one type, and a list of free ones. -/
structure Slots where
  itemType : ItemType
  count : Nat
  memory : Memory := {}
  list : FreeList := {}
  /-- Whether a slot was put on the list twice. -/
  spoiled : Bool := false

inductive SlotsCommand where
  | push (slot : Nat)
  | pushRow (slot count : Nat)
  | pop
  | clear
  | isEmpty
  | traverse (limit : Nat)
  deriving Repr, Inhabited

inductive SlotsAnswer where
  | done
  | slot (slot : Option Nat)
  | truth (b : Bool)
  | traversed (visited : List Nat) (done : Bool)
  deriving Repr, Inhabited

namespace Slots

def address (slots : Slots) (slot : Nat) : Nat :=
  (slot + 1) * slots.itemType.size

def slotAt (slots : Slots) (address : Nat) : Nat :=
  address / slots.itemType.size - 1

/-- The slots on the way from the head of the list on, at most so many, and whether the way ends
there. -/
def entries (slots : Slots) (limit : Nat) : List Nat × Bool :=
  let note := fun (visited : List Nat) (address : Nat) =>
    (.ok (slots.slotAt address :: visited) : Except Fault (List Nat))
  match slots.list.traverse slots.memory note limit [] with
  | .ok (visited, done) => (visited.reverse, done)
  | .error _ => ([], false)

/-- Whether some of `count` slots from `slot` on are on the list. -/
def listsSome (slots : Slots) (slot count : Nat) : Bool :=
  (slots.entries slots.count).1.any fun entry => slot ≤ entry && entry < slot + count

/-- Puts slots on the list, if there are so many, and any at all. -/
def put (slots : Slots) (slot count : Nat)
    (extend : FreeList → Memory → Except Fault (FreeList × Memory)) :
    Except Trouble SlotsAnswer × Slots :=
  if slot < slots.count ∧ count ≤ slots.count - slot then
    if count = 0 then
      (.error (.refusal .zeroCapacity), slots)
    else
      match extend slots.list slots.memory with
      | .error fault => (.error (.stop (.fault fault)), slots)
      | .ok (list, memory) =>
        (.ok .done,
          { slots with list, memory, spoiled := slots.spoiled || slots.listsSome slot count })
  else
    (.error (.refusal .outOfRange), slots)

def run (slots : Slots) : SlotsCommand → Except Trouble SlotsAnswer × Slots
  | .push slot =>
    slots.put slot 1 fun list memory => .ok (list.push (slots.address slot) memory)
  | .pushRow slot count =>
    slots.put slot count fun list memory =>
      list.pushRow (slots.address slot) slots.itemType.size count memory
  | .pop =>
    if slots.spoiled then
      (.error (.refusal .tainted), slots)
    else
      match slots.list.pop? slots.memory with
      | none => (.ok (.slot none), slots)
      | some (address, list) => (.ok (.slot (some (slots.slotAt address))), { slots with list })
  | .clear => (.ok .done, { slots with list := {}, spoiled := false })
  | .isEmpty => (.ok (.truth slots.list.isEmpty), slots)
  | .traverse limit =>
    let (visited, done) := slots.entries limit
    (.ok (.traversed visited done), slots)

def runAll (slots : Slots) : List SlotsCommand → List (Except Trouble SlotsAnswer)
  | [] => []
  | command :: commands =>
    let (answer, slots) := slots.run command
    answer :: slots.runAll commands

end Slots

end SlabPool.Trial
