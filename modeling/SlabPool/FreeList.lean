import SlabPool.Failure
import SlabPool.Memory
import SlabPool.Word

/-!
# Free lists

A free list strings unused items together. It keeps nothing but the address of its first item:
every item on the list holds, in its own first word, a link to the item after it, and the last one
holds the empty link. What the list consists of is therefore a matter of what memory holds, and
whoever gets hold of an item may overwrite its link.

Items come off the list in the reverse of the order in which they were put on it. A run of items
that lie in a row is put on the list as a whole, so that its first item is the next to come off.
-/

namespace SlabPool

/-- The first item of a list of unused items. -/
structure FreeList where
  head : Option Nat := none
  deriving DecidableEq, Repr, Inhabited

namespace FreeList

def isEmpty (list : FreeList) : Bool :=
  list.head.isNone

/-- Takes the first item off the list. The link it holds becomes the head. -/
def pop? (list : FreeList) (memory : Memory) : Option (Nat × FreeList) :=
  list.head.map fun item => (item, ⟨memory.link item⟩)

/-- Puts an item in front of the list. -/
def push (list : FreeList) (item : Nat) (memory : Memory) : FreeList × Memory :=
  (⟨some item⟩, memory.setLink item list.head)

/-- Links `count` items, `stride` bytes apart and the first of them at `item`, each to its
successor. -/
def linkRow (stride : Nat) (memory : Memory) (item : Nat) : Nat → Memory
  | 0 => memory
  | count + 1 => linkRow stride (memory.setLink item (some (item + stride))) (item + stride) count

/-- Puts a run of `count` items in front of the list, `stride` bytes apart and the first of them at
`first`. Each item is linked to the next, the last one to what was on the list before. -/
def pushRow (list : FreeList) (first : Nat) (stride count : Nat) (memory : Memory) :
    Except Fault (FreeList × Memory) :=
  match Word.checkedSub count 1 with
  | none => .error .emptyRun
  | some last =>
    let memory := linkRow stride memory first last
    .ok (⟨some first⟩, memory.setLink (first + last * stride) list.head)

/-- Follows the links from `entry` on and lets `visit` see each item, in order. Ends with `true`
where the links end, and with `false` before the item after the first `limit` ones: an item beyond
the limit is not looked at. A visit can break the walk off. -/
def traverseFrom {β ε : Type} (memory : Memory) (visit : β → Nat → Except ε β) :
    (limit : Nat) → (entry : Option Nat) → β → Except ε (β × Bool)
  | _, none, seen => .ok (seen, true)
  | 0, some _, seen => .ok (seen, false)
  | limit + 1, some item, seen =>
    match visit seen item with
    | .error stop => .error stop
    | .ok seen => traverseFrom memory visit limit (memory.link item) seen

def traverse {β ε : Type} (list : FreeList) (memory : Memory) (visit : β → Nat → Except ε β)
    (limit : Nat) (start : β) : Except ε (β × Bool) :=
  traverseFrom memory visit limit list.head start

/-! ## What the operations leave of the list -/

@[simp] theorem isEmpty_iff {list : FreeList} : list.isEmpty = true ↔ list.head = none := by
  simp [isEmpty]

@[simp] theorem pop?_eq_none_iff {list : FreeList} {memory : Memory} :
    list.pop? memory = none ↔ list.isEmpty = true := by
  simp [pop?]

theorem pushRow_of_pos {list : FreeList} {first : Nat} {stride count : Nat} {memory : Memory}
    (h : 0 < count) :
    list.pushRow first stride count memory =
      .ok (⟨some first⟩, (linkRow stride memory first (count - 1)).setLink
        (first + (count - 1) * stride) list.head) := by
  have : Word.checkedSub count 1 = some (count - 1) := by
    rw [Word.checkedSub_eq_some_iff]
    omega
  simp [pushRow, this]

end FreeList

end SlabPool
