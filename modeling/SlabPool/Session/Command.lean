import SlabPool.Host.Collaborator
import SlabPool.Session.Kind

/-!
# What can be said in a session

A session is a conversation: each command is answered before the next one is given. Pools, handles
and recording allocators are named by numbers; a handle stands for an item that was handed out.

Most commands are correct uses of a pool. Some are misuses on purpose, which pools do not notice by
themselves: releasing an item twice, an item of another pool, a place inside an item, or an item
that belongs to no pool. A command that makes no sense is refused and changes nothing.

An argument of a command may be missing, or be said in a way that cannot be understood. That is no
obstacle until the command needs it: it asks for its arguments in an order of its own, and only the
first thing that is wrong is the answer.
-/

namespace SlabPool

/-- Why a command was refused. -/
inductive Refusal where
  | badInput
  | zeroCapacity
  | noLayout
  /-- There is no such pool, or no longer. -/
  | noPool
  /-- No item was given out under this number. -/
  | noHandle
  /-- The item is not in use any more. -/
  | notLive
  /-- The item was not released, or its place is in use again. -/
  | notReleased
  /-- No value was put into the item. -/
  | noValue
  /-- The free slots of the pool were misused. -/
  | tainted
  | outOfRange
  deriving DecidableEq, Repr, Inhabited

/-- Why a command had no answer. -/
inductive Trouble where
  | refusal (refusal : Refusal)
  | stop (stop : Stop)
  deriving DecidableEq, Repr, Inhabited

/-- How a pool is to be made. -/
inductive Construction where
  | plain (allocator : Collaborator)
  /-- By a blueprint: with these capacities, one after the other, then perhaps this allocator, then
  these capacities. -/
  | planned (before : List Nat) (allocator : Option Collaborator) (after : List Nat)
  deriving Repr, Inhabited

/-- An argument of a command: `none` if there is none that can be understood. -/
abbrev Argument (α : Type) := Option α

/-- A command. Where there is a number `failIn`, the heap refuses one request after so many others
while the command is carried out. -/
inductive Command where
  | create (kind : Argument Kind) (construction : Argument Construction) (failIn : Option Nat)
  | acquire (pool : Argument Nat) (failIn : Option Nat)
  | acquireMany (pool count : Argument Nat) (failIn : Option Nat)
  | insert (pool : Argument Nat) (datum : Argument Datum) (failIn : Option Nat)
  | grow (pool capacity : Argument Nat) (failIn : Option Nat)
  | capacities (pool : Argument Nat)
  | describe (pool : Argument Nat) (pretty : Bool)
  | countLive (pool : Argument Nat)
  | check (pool : Argument Nat)
  | destroy (pool : Argument Nat)
  | drop (pool : Argument Nat)
  | releaseForeign (pool : Argument Nat)
  | give (pool handle : Argument Nat)
  | nameOf (handle : Argument Nat)
  | write (handle : Argument Nat) (datum : Argument Datum)
  | read (handle : Argument Nat)
  | release (handle : Argument Nat)
  | remove (handle : Argument Nat)
  | releaseAgain (handle : Argument Nat)
  /-- Releases a place so many bytes inside an item. -/
  | releaseInside (handle offset : Argument Nat)
  | readMany (handles : Argument (List Nat))
  | releaseMany (handles : Argument (List Nat))
  | removeMany (handles : Argument (List Nat))
  | configure (id : Nat) (settings : Argument LedgerSettings)
  | inspect (id : Nat)
  /-- Something to be done with a pool, but it is not understood what. -/
  | unknown (pool : Argument Nat)
  deriving Inhabited

inductive Subject where
  | pool (number : Nat)
  /-- The pool from which an item was handed out. -/
  | handle (number : Nat)
  deriving DecidableEq, Repr, Inhabited

/-- What an item is called. -/
inductive ItemName where
  /-- By the block of the recording allocator it lies in, and its place there. -/
  | place (block index : Nat)
  /-- By the order in which its pool first handed its place out. -/
  | number (n : Nat)
  deriving DecidableEq, Repr, Inhabited

structure NameRun where
  first : ItemName
  count : Nat
  deriving DecidableEq, Repr, Inhabited

inductive Answer where
  | done
  | number (n : Nat)
  | item (name : ItemName)
  /-- Items that were handed out one after the other, and why there are no more of them. -/
  | runs (runs : List NameRun) (stop : Option Trouble)
  | capacities (counts : List Nat)
  | text (s : String)
  | datum (datum : Datum)
  | data (answers : List (Except Trouble Datum))
  /-- The first of several items with which there was trouble. -/
  | halted (position : Nat) (trouble : Trouble)
  | ledger (ledger : Ledger)
  deriving Inhabited

end SlabPool
