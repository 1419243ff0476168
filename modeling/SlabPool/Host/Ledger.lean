import SlabPool.Host.Heap

/-!
# Recording allocators

An allocator that takes its blocks from the heap and keeps a ledger: how often it was asked, which
blocks it gave, and which of them came back, in order. It can be set to refuse requests, or to raise
a fault instead of doing its work.

Of the reasons not to give a block, the fault comes first, then the allocator's own refusals, then
those of the heap.
-/

namespace SlabPool

structure LedgerSettings where
  /-- Refuse every request. -/
  exhausted : Bool := false
  /-- Refuse a request that would bring the bytes in use above this. -/
  limit : Option Nat := none
  /-- Refuse the request with this number, counted from one. -/
  failAt : Option Nat := none
  /-- What to name in a refusal, in place of the layout that was asked for. -/
  refusal : Option AllocationFailure := none
  /-- Raise a fault on every request. -/
  faultOnRequest : Bool := false
  /-- Raise a fault, once, when a block comes back after exactly so many others. -/
  faultOnReturn : Option Nat := none
  deriving Inhabited

structure LedgerBlock where
  first : Nat
  layout : Layout
  live : Bool := true
  deriving Inhabited

/-- What a recording allocator knows. -/
structure Ledger where
  settings : LedgerSettings := {}
  requests : Nat := 0
  /-- The blocks, in the order in which they were given. -/
  blocks : Array LedgerBlock := #[]
  /-- The numbers of the blocks that came back, in order. -/
  returned : Array Nat := #[]
  deriving Inhabited

namespace Ledger

def live (ledger : Ledger) : List LedgerBlock :=
  ledger.blocks.toList.filter (·.live)

def liveBytes (ledger : Ledger) : Nat :=
  Word.total (ledger.live.map (·.layout.size))

/-- Whether the latest request, for so many bytes, is one that the allocator itself refuses. -/
def refuses (ledger : Ledger) (bytes : Nat) : Bool :=
  ledger.settings.exhausted
    || ledger.settings.limit.any (· < ledger.liveBytes + bytes)
    || ledger.settings.failAt == some ledger.requests

def allocate (ledger : Ledger) (layout : Layout) (heap : Heap) :
    Except Stop Nat × Ledger × Heap :=
  let ledger := { ledger with requests := ledger.requests + 1 }
  if ledger.settings.faultOnRequest then
    (.error (.fault (.raised
      ("collaborator panicked while allocating " ++ toString layout.size ++ " bytes"))),
      ledger, heap)
  else if ledger.refuses layout.size then
    (.error (.refused (ledger.settings.refusal.getD layout.failure)), ledger, heap)
  else
    match heap.allocate layout with
    | (.error stop, heap) => (.error stop, ledger, heap)
    | (.ok block, heap) =>
      (.ok block, { ledger with blocks := ledger.blocks.push { first := block, layout } }, heap)

/-- The number of the block at an address, if one was given there. -/
def blockAt? (ledger : Ledger) (address : Nat) : Option Nat :=
  ledger.blocks.findIdx? fun block =>
    block.first ≤ address && address < block.first + block.layout.size

/-- The number of the block in which an item lies, and the number of items of that size before it
in the block. -/
def locate? (ledger : Ledger) (size item : Nat) : Option (Nat × Nat) := do
  let number ← ledger.blockAt? item
  let block ← ledger.blocks[number]?
  return (number, (item - block.first) / size)

def release (ledger : Ledger) (block : Nat) : Except Fault Unit × Ledger :=
  match ledger.blockAt? block with
  | none => (.ok (), ledger)
  | some number =>
    if ledger.settings.faultOnReturn == some ledger.returned.size then
      (.error (.raised
        ("collaborator panicked while releasing block " ++ toString number)),
        { ledger with settings := { ledger.settings with faultOnReturn := none } })
    else
      (.ok (),
        { ledger with
          blocks := ledger.blocks.modify number ({ · with live := false })
          returned := ledger.returned.push number })

end Ledger

end SlabPool
