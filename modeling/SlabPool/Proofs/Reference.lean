import SlabPool.Pool.Blueprint
import SlabPool.Proofs.Occasions

/-!
The reference machine.

A `StackPool` does what a pool does and has none of its machinery: there is no memory and there are
no links, the free slots are a plain list of places, and the values that clients put into slots are
kept by place. Slots are taken from the head of the list and put back there. Growth puts the slots
of the new slab in front, in ascending order, and is worked out here from the numbers alone: when
there has to be room for more slabs, how large a block is, which errors name which numbers.

The machine asks the same surroundings as a pool does. What an allocator answers is the address of a
block, which is kept for no other purpose than to hand the block back. What others do to memory on
an occasion is nothing to the machine.
-/

namespace SlabPool

structure StackPool (T : ItemType) (α : Type) where
  allocator : α
  slabs : List (Slab T) := []
  reserved : Nat := 0
  acquired : Nat := 0
  free : List Place := []
  contents : Place → Option T.Value := fun _ => none

/-- What comes of an operation of the machine. -/
structure StackPool.Answer (T : ItemType) (α σ β : Type) where
  result : Except Stop β
  supply : σ
  pool : StackPool T α

namespace StackPool

variable {T : ItemType} {α σ : Type}

/-- The places of the slots of a slab, in ascending order. -/
def row (slab count : Nat) : List Place :=
  (List.range count).map (Place.mk slab)

/-- Adds a slab that there is room to list. -/
def addSlab (S : Supply α σ) (stack : StackPool T α) (capacity : Capacity) (supply : σ) :
    Answer T α σ Unit :=
  let size := T.size * capacity.val
  if 9223372036854775808 - T.align < size then
    { result := .error (.refused ⟨min size Word.max, T.align⟩), supply, pool := stack }
  else
    match S.allocate stack.allocator ⟨size, T.align⟩ supply with
    | (.error stop, supply) => { result := .error stop, supply, pool := stack }
    | (.ok block, supply) =>
      { result := .ok ()
        supply
        pool := { stack with
          slabs := stack.slabs ++ [⟨block, capacity⟩]
          free := row stack.slabs.length capacity.val ++ stack.free } }

/-- Adds a slab. There is room for four slabs at first, and for twice as many whenever the room is
used up; a slab takes sixteen bytes in the list of slabs. -/
def grow (S : Supply α σ) (stack : StackPool T α) (capacity : Capacity) (supply : σ) :
    Answer T α σ Unit :=
  if stack.slabs.length < stack.reserved then
    stack.addSlab S capacity supply
  else
    let reserved := max 4 (2 * stack.reserved)
    match S.reserve (16 * reserved) supply with
    | (false, supply) =>
      { result := .error (.refused ⟨min (16 * (stack.slabs.length + 1)) Word.max, 8⟩)
        supply
        pool := stack }
    | (true, supply) => { stack with reserved }.addSlab S capacity supply

/-- Takes the first free slot, of which nobody knows the content. -/
def take (stack : StackPool T α) : Except Stop Place × StackPool T α :=
  match stack.free with
  | [] => (.error (.fault .emptyAfterGrowth), stack)
  | place :: free =>
    (.ok place, { stack with
      free
      acquired := stack.acquired + 1
      contents := Function.update stack.contents place none })

/-- As many slots as were handed out so far, but no fewer than eight. -/
def nextGrowth (stack : StackPool T α) : Capacity :=
  ⟨max 8 stack.acquired, by omega⟩

/-- Hands out a slot. Where none is free, a slab is added first. -/
def acquire (S : Supply α σ) (stack : StackPool T α) (supply : σ) : Answer T α σ Place :=
  match stack.free with
  | _ :: _ =>
    let (result, pool) := stack.take
    { result, supply, pool }
  | [] =>
    let growth := stack.grow S stack.nextGrowth supply
    match growth.result with
    | .error stop => { growth with result := .error stop }
    | .ok () =>
      let (result, pool) := growth.pool.take
      { growth with result, pool }

def release (stack : StackPool T α) (place : Place) : StackPool T α :=
  { stack with free := place :: stack.free }

def enter (stack : StackPool T α) (place : Place) (content : Option T.Value) : StackPool T α :=
  { stack with contents := Function.update stack.contents place content }

/-- Hands blocks back, up to the first fault. -/
def handBack (S : Supply α σ) (allocator : α) : List (Slab T) → σ → Except Fault Unit × σ
  | [], supply => (.ok (), supply)
  | slab :: slabs, supply =>
    match S.release allocator slab.first ⟨T.size * slab.capacity.val, T.align⟩ supply with
    | (.error fault, supply) => (.error fault, supply)
    | (.ok (), supply) => handBack S allocator slabs supply

/-- Empties everything. After a fault, the room for slabs and the count stay. -/
def destroy (S : Supply α σ) (stack : StackPool T α) (supply : σ) : Answer T α σ Unit :=
  match handBack S stack.allocator stack.slabs supply with
  | (.error fault, supply) =>
    { result := .error (.fault fault)
      supply
      pool := { stack with slabs := [], free := [], contents := fun _ => none } }
  | (.ok (), supply) =>
    { result := .ok (), supply, pool := { allocator := stack.allocator } }

/-- Carries a request out. What was never put into a slot cannot be read from it. -/
def serve (S : Supply α σ) (stack : StackPool T α) (supply : σ) :
    Request T Place → Answer T α σ (Outcome T Place)
  | .acquire =>
    let answer := stack.acquire S supply
    { answer with result := answer.result.map .item }
  | .insert value =>
    let answer := stack.acquire S supply
    match answer.result with
    | .ok place =>
      { answer with result := .ok (.item place), pool := answer.pool.enter place (some value) }
    | .error stop => { answer with result := .error (stop.afterDiscard (T.finalise value.val)) }
  | .release place => { result := .ok .done, supply, pool := stack.release place }
  | .remove place =>
    match (stack.contents place).bind fun value => T.finalise value.val with
    | some message =>
      { result := .error (.fault (.raised message)), supply, pool := stack.enter place none }
    | none => { result := .ok .done, supply, pool := stack.release place }
  | .grow capacity =>
    let answer := stack.grow S capacity supply
    { answer with result := answer.result.map fun () => .done }
  | .check => { result := .ok .done, supply, pool := stack }
  | .destroy =>
    let answer := stack.destroy S supply
    { answer with result := answer.result.map fun () => .done }
  | .read place =>
    match stack.contents place with
    | some value => { result := .ok (.value value), supply, pool := stack }
    | none => { result := .ok .done, supply, pool := stack }
  | .write place value => { result := .ok .done, supply, pool := stack.enter place (some value) }
  | .scribble place offset words =>
    let content := (stack.contents place).map (ItemType.overwrite · offset words)
    { result := .ok .done, supply, pool := stack.enter place content }

def build (S : Supply α σ) (T : ItemType) (plan : Blueprint α) (supply : σ) :
    Answer T α σ Unit :=
  let stack : StackPool T α := { allocator := plan.allocator }
  match plan.initial with
  | none => { result := .ok (), supply, pool := stack }
  | some capacity => stack.grow S capacity supply

end StackPool

/-! ### What is seen of a run -/

/-- What is seen of an operation: the answer, with items named by their places, the capacities of
the slabs, the count of acquisitions, and whether there is a free slot. -/
structure Report (T : ItemType) where
  result : Except Stop (Outcome T (Option Place))
  capacities : List Nat
  acquired : Nat
  hasFree : Bool

/-- What is seen of a pool that could not be made. -/
def Report.unmade {T : ItemType} (stop : Stop) : Report T :=
  { result := .error stop, capacities := [], acquired := 0, hasFree := false }

namespace StackPool

variable {T : ItemType} {α σ : Type}

def report (stack : StackPool T α) (result : Except Stop (Outcome T Place)) : Report T where
  result := result.map (Outcome.map some)
  capacities := stack.slabs.map (·.capacity.val)
  acquired := stack.acquired
  hasFree := !stack.free.isEmpty

/-- What is seen of a series of requests, and what becomes of the surroundings. -/
def course (S : Supply α σ) : StackPool T α → Recorded α σ → List (Occasion T σ) →
    List (Report T) × Recorded α σ
  | _, record, [] => ([], record)
  | stack, record, occasion :: occasions =>
    let answer := stack.serve S.recorded (occasion.supply record) occasion.request
    let rest := answer.pool.course S answer.supply occasions
    (answer.pool.report answer.result :: rest.1, rest.2)

/-- What is seen of a machine from the beginning. -/
def history (S : Supply α σ) (T : ItemType) (plan : Blueprint α) (record : Recorded α σ)
    (occasions : List (Occasion T σ)) : List (Report T) × Recorded α σ :=
  let answer := build S.recorded T plan record
  match answer.result with
  | .error stop => ([.unmade stop], answer.supply)
  | .ok () =>
    let rest := answer.pool.course S answer.supply occasions
    (answer.pool.report (.ok .done) :: rest.1, rest.2)

end StackPool

namespace Account

variable {T : ItemType} {α σ : Type}

def report (account : Account T α) (result : Except Stop (Outcome T Nat)) : Report T where
  result := result.map (Outcome.map account.pool.index.locate?)
  capacities := account.pool.capacities
  acquired := account.pool.acquired
  hasFree := account.pool.hasFree

/-- The same for a pool, whose clients have the addresses of their items. -/
def course (S : Supply α σ) : Account T α → World (Recorded α σ) → List (Occasion T σ) →
    List (Report T) × World (Recorded α σ)
  | _, world, [] => ([], world)
  | account, world, occasion :: occasions =>
    let served := account.attend S world occasion
    let rest := served.account.course S served.world occasions
    (served.account.report served.result :: rest.1, rest.2)

end Account

namespace Blueprint

variable {α σ : Type}

/-- What is seen of a pool from the beginning. -/
def history (S : Supply α σ) (T : ItemType) (plan : Blueprint α) (world : World (Recorded α σ))
    (occasions : List (Occasion T σ)) : List (Report T) × World (Recorded α σ) :=
  let reply := plan.build S.recorded T world
  match reply.result with
  | .error stop => ([.unmade stop], reply.world)
  | .ok pool =>
    let account : Account T α := { pool }
    let rest := account.course S reply.world occasions
    (account.report (.ok .done) :: rest.1, rest.2)

/-- The contract of clients, kept from the beginning. -/
def LawfulCountedAt (S : Supply α σ) (T : ItemType) (plan : Blueprint α)
    (world : World (Recorded α σ)) (occasions : List (Occasion T σ)) : Prop :=
  ∀ pool ∈ (plan.build S.recorded T world).result.toOption,
    Account.LawfulCountedAt S { pool } (plan.build S.recorded T world).world occasions

instance (S : Supply α σ) (T : ItemType) (plan : Blueprint α) (world : World (Recorded α σ))
    (occasions : List (Occasion T σ)) : Decidable (plan.LawfulCountedAt S T world occasions) :=
  inferInstanceAs (Decidable (∀ pool ∈ _, _))

/-- Others keep out of the slots of the pool from the beginning. -/
def Spared (S : Supply α σ) (T : ItemType) (plan : Blueprint α) (world : World (Recorded α σ))
    (occasions : List (Occasion T σ)) : Prop :=
  ∀ pool ∈ (plan.build S.recorded T world).result.toOption,
    Account.Spared S { pool } (plan.build S.recorded T world).world occasions

end Blueprint

end SlabPool
