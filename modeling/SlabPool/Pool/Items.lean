import SlabPool.Pool.Growth

/-!
# Handing out slots and taking them back

The slot that was taken back last is the first to be handed out again. A slab is added only when no
slot is free.

`acquire` and `release` deal in storage alone. `insert` and `remove` also look after the value in
it: `insert` writes a value into the slot it hands out, and brings the value to its end if there is
no slot for it; `remove` brings the value in a slot to its end before it takes the slot back, and
does not take it back if that raises a fault.
-/

namespace SlabPool

/-- Why a value found no place, given what was raised when it came to its end. A fault that was
raised before stays what it is. -/
def Stop.afterDiscard (stop : Stop) (raised : Option String) : Stop :=
  match stop, raised with
  | .refused _, some message => .fault (.raised message)
  | stop, _ => stop

namespace Pool

variable {T : ItemType} {α σ : Type}

/-- Takes the first free slot and counts it as handed out. -/
def take (pool : Pool T α) (memory : Memory) : Except Stop Nat × Pool T α :=
  match pool.free.pop? memory with
  | none => (.error (.fault .emptyAfterGrowth), pool)
  | some (item, free) =>
    match Word.checkedAdd pool.acquired 1 with
    | none => (.error (.fault .countExhausted), { pool with free })
    | some acquired => (.ok item, { pool with free, acquired })

/-- Hands out a slot. If none is free, a slab is added first. -/
def acquire (S : Supply α σ) (pool : Pool T α) (world : World σ) : Turn T α σ Nat :=
  if pool.free.isEmpty then
    let growth := pool.grow S pool.nextGrowth world
    match growth.result with
    | .error stop => { growth with result := .error stop }
    | .ok () =>
      let (result, pool) := growth.pool.take growth.world.memory
      { growth with result, pool }
  else
    let (result, pool) := pool.take world.memory
    { result, world, pool }

/-- Takes a slot back. Whether it is one of this pool's, and in use, is not checked. -/
def release (pool : Pool T α) (item : Nat) (world : World σ) : Turn T α σ Unit :=
  let (free, memory) := pool.free.push item world.memory
  { result := .ok (), world := { world with memory }, pool := { pool with free } }

/-- Hands out a slot with a value in it. A value that finds no place comes to its end. -/
def insert (S : Supply α σ) (pool : Pool T α) (value : T.Value) (world : World σ) :
    Turn T α σ Nat :=
  let turn := pool.acquire S world
  match turn.result with
  | .ok item =>
    { turn with world := { turn.world with memory := ItemType.store turn.world.memory item value } }
  | .error stop =>
    { turn with
      result := .error (stop.afterDiscard (T.finalise value.val))
      destroyed := turn.destroyed ++ [value.val] }

/-- Brings the value in a slot to its end and takes the slot back. -/
def remove (pool : Pool T α) (item : Nat) (world : World σ) : Turn T α σ Unit :=
  let value := T.load world.memory item
  match T.finalise value.val with
  | some message =>
    { result := .error (.fault (.raised message)), destroyed := [value.val], world, pool }
  | none => { pool.release item world with destroyed := [value.val] }

end Pool

end SlabPool
