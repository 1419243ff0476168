import Mathlib.Logic.Function.Basic
import SlabPool.Pool.Check
import SlabPool.Pool.Ending
import SlabPool.Pool.Items

/-!
A pool and what its clients hold of it.

A pool does not know which of its items are in use. An `Account` is a pool together with what only
its clients know: the items they hold, and the value that was last put into each of them, if one
was. A `Request` is one use of the pool or of an item, and `Account.serve` carries it out: the pool
does what it does, and the books are kept beside it. Nothing in the answer depends on the books.

`Account.Permits` is the contract of clients: they give back, read and write only what they hold.
Some results ask for a little more of clients. `PermitsCounted` adds that no slot is asked for once
the count of acquisitions is at its end, and `PermitsValued` that an item is removed only with a
value in it. The names of items are a parameter `ρ`, because items can be named by their addresses
or by their places in the pool.
-/

namespace SlabPool

/-- Every numeral but zero is a capacity. -/
instance (count : Nat) : OfNat Capacity (count + 1) := ⟨count + 1, count.succ_pos⟩

/-! ### Values that are written over in part -/

namespace ItemType

variable {T : ItemType}

/-- A row of words, with other words from some position on. What goes beyond the row is lost. -/
def overwriteRow (row : List Nat) (position : Nat) : List Nat → List Nat
  | [] => row
  | word :: words => overwriteRow (row.set position word) (position + 1) words

@[simp] theorem length_overwriteRow (row : List Nat) (position : Nat) (words : List Nat) :
    (overwriteRow row position words).length = row.length := by
  induction words generalizing row position with
  | nil => rfl
  | cons word words ih => rw [overwriteRow, ih, List.length_set]

/-- A value, with other words from some offset on. -/
def overwrite (value : T.Value) (offset : Nat) (words : List Nat) : T.Value :=
  ⟨overwriteRow value.val (offset / 8) words, by rw [length_overwriteRow, value.property]⟩

theorem getElem_readRow (memory : Memory) (address count : Nat) {k : Nat}
    (h : k < (memory.readRow address count).length) :
    (memory.readRow address count)[k] = memory.read (address + 8 * k) := by
  induction count generalizing address k with
  | zero => exact absurd h (Nat.not_lt_zero k)
  | succ count ih =>
      cases k with
      | zero => rfl
      | succ k =>
          simp only [Memory.readRow, List.getElem_cons_succ, ih]
          congr 1
          omega

theorem readRow_write {address : Nat} (haligned : 8 ∣ address) (memory : Memory)
    (position count word : Nat) :
    (memory.write (address + 8 * position) word).readRow address count =
      (memory.readRow address count).set position word := by
  apply List.ext_getElem
  · simp
  · intro k hk _
    rw [getElem_readRow, List.getElem_set, getElem_readRow, Memory.read_write]
    by_cases heq : position = k
    · rw [if_pos heq, if_pos (by rw [heq])]
    · rw [if_neg heq, if_neg (by omega)]

theorem readRow_writeRow_within {address : Nat} (haligned : 8 ∣ address) (memory : Memory)
    (position count : Nat) (words : List Nat) :
    (memory.writeRow (address + 8 * position) words).readRow address count =
      overwriteRow (memory.readRow address count) position words := by
  induction words generalizing memory position with
  | nil => rfl
  | cons word words ih =>
      rw [Memory.writeRow, overwriteRow, ← readRow_write haligned, ← ih]
      -- what is left are the addresses of the words that follow
      congr 2

/-- Words written into an item show in the value that is loaded. -/
theorem load_writeRow {item offset : Nat} (hitem : 8 ∣ item) (hoffset : 8 ∣ offset)
    (memory : Memory) (words : List Nat) :
    T.load (memory.writeRow (item + offset) words) item =
      overwrite (T.load memory item) offset words := by
  have heq : offset = 8 * (offset / 8) := by omega
  apply Subtype.ext
  show (memory.writeRow (item + offset) words).readRow item T.width = _
  rw [heq, readRow_writeRow_within hitem]
  simp [overwrite, load]

theorem load_of_stored {value stored : T.Value} (h : some value = some stored) (memory : Memory)
    (item : Nat) : T.load (store memory item value) item = stored := by
  obtain rfl := Option.some.inj h
  exact load_store memory item value

theorem load_of_overwritten {item offset : Nat} (hitem : 8 ∣ item) (hoffset : 8 ∣ offset)
    {memory : Memory} {content : Option T.Value} {words : List Nat} {value : T.Value}
    (hcontent : ∀ former, content = some former → T.load memory item = former)
    (h : content.map (overwrite · offset words) = some value) :
    T.load (memory.writeRow (item + offset) words) item = value := by
  obtain ⟨former, hformer, rfl⟩ := Option.map_eq_some_iff.mp h
  rw [load_writeRow hitem hoffset, hcontent former hformer]

end ItemType

/-! ### Requests and accounts -/

/-- One use of a pool of items of type `T`, or of one of its items. -/
inductive Request (T : ItemType) (ρ : Type) where
  | acquire
  | insert (value : T.Value)
  | release (item : ρ)
  | remove (item : ρ)
  | grow (capacity : Capacity)
  | check
  | destroy
  | read (item : ρ)
  | write (item : ρ) (value : T.Value)
  /-- Words written into the storage of an item, without regard to what they mean there. -/
  | scribble (item : ρ) (offset : Nat) (words : List Nat)

namespace Request

variable {T : ItemType} {ρ τ : Type}

/-- The same request under other names. -/
def map (rename : ρ → τ) : Request T ρ → Request T τ
  | acquire => acquire
  | insert value => insert value
  | release item => release (rename item)
  | remove item => remove (rename item)
  | grow capacity => grow capacity
  | check => check
  | destroy => destroy
  | read item => read (rename item)
  | write item value => write (rename item) value
  | scribble item offset words => scribble (rename item) offset words

/-- The request ends the hold on an item, or is meant to. -/
def Ends (item : ρ) : Request T ρ → Prop
  | release other | remove other => other = item
  | destroy => True
  | _ => False

/-- The request asks for a slot. -/
def takes : Request T ρ → Bool
  | acquire | insert _ => true
  | _ => false

/-- The request writes into an item on behalf of a client. -/
def Overwrites (item : ρ) : Request T ρ → Prop
  | write other _ | scribble other _ _ => other = item
  | _ => False

end Request

inductive Outcome (T : ItemType) (ρ : Type) where
  | done
  | item (item : ρ)
  | value (value : T.Value)
  deriving DecidableEq

def Outcome.map {T : ItemType} {ρ τ : Type} (rename : ρ → τ) : Outcome T ρ → Outcome T τ
  | .done => .done
  | .item name => .item (rename name)
  | .value datum => .value datum

/-- A pool, the items that its clients hold, and the values they put into them. -/
structure Account (T : ItemType) (α : Type) where
  pool : Pool T α
  held : List Nat := []
  contents : Nat → Option T.Value := fun _ => none

/-- What comes of a request: the answer, and the account afterwards. -/
structure Served (T : ItemType) (α σ : Type) extends Reply σ (Outcome T Nat) where
  account : Account T α

namespace Account

variable {T : ItemType} {α σ : Type}

/-- Enters an item that was handed out with a value in it, or without one. -/
def handOut (account : Account T α) (value : Option T.Value) (turn : Turn T α σ Nat) :
    Served T α σ where
  toReply := { turn.toReply with result := turn.result.map .item }
  account :=
    match turn.result with
    | .ok item =>
      { pool := turn.pool
        held := item :: account.held
        contents := Function.update account.contents item value }
    | .error _ => { account with pool := turn.pool }

/-- Strikes out an item that was given back. One that could not be taken back stays held, without a
value. -/
def takeBack (account : Account T α) (item : Nat) (turn : Turn T α σ Unit) : Served T α σ where
  toReply := { turn.toReply with result := turn.result.map fun () => .done }
  account :=
    match turn.result with
    | .ok () => { account with pool := turn.pool, held := account.held.erase item }
    | .error _ =>
      { account with pool := turn.pool, contents := Function.update account.contents item none }

/-- Answers without a change of the pool. -/
def answer (account : Account T α) (result : Except Stop (Outcome T Nat)) (world : World σ) :
    Served T α σ :=
  { result, world, account }

def serve (S : Supply α σ) (account : Account T α) (world : World σ) :
    Request T Nat → Served T α σ
  | .acquire => account.handOut none (account.pool.acquire S world)
  | .insert value => account.handOut (some value) (account.pool.insert S value world)
  | .release item => account.takeBack item (account.pool.release item world)
  | .remove item => account.takeBack item (account.pool.remove item world)
  | .grow capacity =>
    let turn := account.pool.grow S capacity world
    { turn.toReply with
      result := turn.result.map fun () => .done
      account := { account with pool := turn.pool } }
  | .check =>
    match account.pool.check world.memory with
    | .ok () => account.answer (.ok .done) world
    | .error fault => account.answer (.error (.fault fault)) world
  | .destroy =>
    let turn := account.pool.destroy S world
    { turn.toReply with
      result := turn.result.map fun () => .done
      account := { pool := turn.pool } }
  | .read item => account.answer (.ok (.value (T.load world.memory item))) world
  | .write item value =>
    { account with
      contents := Function.update account.contents item (some value) }.answer (.ok .done)
      { world with memory := ItemType.store world.memory item value }
  | .scribble item offset words =>
    let content := (account.contents item).map (ItemType.overwrite · offset words)
    { account with contents := Function.update account.contents item content }.answer (.ok .done)
      { world with memory := world.memory.writeRow (item + offset) words }

/-! ### The contract of clients -/

/-- Clients use only items they hold, and write nowhere but into them. -/
def Permits (account : Account T α) : Request T Nat → Prop
  | .release item | .remove item | .read item | .write item _ => item ∈ account.held
  | .scribble item offset words =>
    item ∈ account.held ∧ 8 ∣ offset ∧ offset + 8 * words.length ≤ T.size
  | .acquire | .insert _ | .grow _ | .check | .destroy => True

instance (account : Account T α) (request : Request T Nat) : Decidable (account.Permits request) :=
  match request with
  | .release _ | .remove _ | .read _ | .write _ _ => inferInstanceAs (Decidable (_ ∈ _))
  | .scribble _ _ _ => inferInstanceAs (Decidable (_ ∧ _ ∧ _))
  | .acquire | .insert _ | .grow _ | .check | .destroy => isTrue trivial

theorem Permits.held_of_overwrites {account : Account T α} {request : Request T Nat}
    (h : account.Permits request) (item : Nat) (hoverwrites : request.Overwrites item) :
    item ∈ account.held := by
  cases request with
  | write other value =>
      obtain rfl : other = item := hoverwrites
      exact h
  | scribble other offset words =>
      obtain rfl : other = item := hoverwrites
      exact h.1
  | acquire | insert | release | remove | grow | check | destroy | read => exact hoverwrites.elim

/-- Besides, a slot is asked for only while its acquisition can be counted. -/
def PermitsCounted (account : Account T α) (request : Request T Nat) : Prop :=
  account.Permits request ∧ (request.takes = true → account.pool.acquired < Word.max)

instance (account : Account T α) (request : Request T Nat) :
    Decidable (account.PermitsCounted request) :=
  inferInstanceAs (Decidable (_ ∧ _))

/-- Besides, an item is removed only if there is a value in it. -/
def PermitsValued (account : Account T α) (request : Request T Nat) : Prop :=
  account.Permits request ∧
    match request with
    | .remove item => (account.contents item).isSome = true
    | _ => True

instance (account : Account T α) (request : Request T Nat) :
    Decidable (account.PermitsValued request) :=
  match request with
  | .remove _ => inferInstanceAs (Decidable (_ ∧ _ = true))
  | .acquire | .insert _ | .release _ | .grow _ | .check | .destroy | .read _ | .write _ _
  | .scribble _ _ _ => inferInstanceAs (Decidable (_ ∧ True))

end Account

end SlabPool
