import SlabPool.Pool.Basic

/-!
# Checking the free slots

Slots that are released twice, or that never belonged to the pool, spoil the list of the free slots.
The check walks along the list and looks for both. It does not remember where it has been: a list
that is in order cannot have more entries than the pool has slots, so one that goes on beyond that
number leads round in a circle.
-/

namespace SlabPool.Pool

variable {T : ItemType} {α : Type}

/-- Looks at one entry of the list of free slots. -/
def checkEntry (pool : Pool T α) (entry : Nat) : Except Fault Unit :=
  if pool.index.contains entry then .ok () else .error (.foreignEntry T.name entry)

/-- Raises a fault if the list of the free slots leads to a place that is no slot of the pool, or
does not end. -/
def check (pool : Pool T α) (memory : Memory) : Except Fault Unit :=
  match pool.checkedCapacity with
  | .error fault => .error fault
  | .ok capacity =>
    match pool.free.traverse memory (fun () entry => pool.checkEntry entry) capacity () with
    | .error fault => .error fault
    | .ok ((), true) => .ok ()
    | .ok ((), false) => .error (.endlessList T.name capacity)

end SlabPool.Pool
