import SlabPool.FreeList

/-!
# What is on a free list

A free list is a head and links in memory. This module says what it holds as a plain list of
addresses, and what each operation does to that list.

`Memory.Chain` relates an entry to the addresses that the links lead through before they end;
there is at most one such list of addresses, and none where the links run in a circle.
`Memory.path` is defined for every memory whatever: it is the beginning of the way along the links,
up to a given length. A walk visits exactly a path (`traverseFrom_eq_foldl_path`).

An operation writes links only into the items that it puts on the list. The laws of the operations
therefore ask that these items lie in other cells than the items that are on the list already.
-/

namespace SlabPool

namespace Memory

/-- The links from `entry` on lead through `items`, in order, and end. -/
def Chain (memory : Memory) (entry : Option Nat) : List Nat → Prop
  | [] => entry = none
  | item :: items => entry = some item ∧ memory.Chain (memory.link item) items

/-- The first items, at most `limit` of them, on the way along the links from `entry` on. -/
def path (memory : Memory) : (limit : Nat) → (entry : Option Nat) → List Nat
  | _, none => []
  | 0, some _ => []
  | limit + 1, some item => item :: memory.path limit (memory.link item)

/-- Whether the way along the links ends after at most `limit` items. -/
def endsWithin (memory : Memory) : (limit : Nat) → (entry : Option Nat) → Bool
  | _, none => true
  | 0, some _ => false
  | limit + 1, some item => memory.endsWithin limit (memory.link item)

@[simp] theorem chain_nil {memory : Memory} {entry : Option Nat} :
    memory.Chain entry [] ↔ entry = none := Iff.rfl

@[simp] theorem chain_cons {memory : Memory} {entry : Option Nat} {item : Nat} {items : List Nat} :
    memory.Chain entry (item :: items) ↔
      entry = some item ∧ memory.Chain (memory.link item) items := Iff.rfl

/-- The links from one entry on lead through one list of items only. -/
theorem Chain.unique {memory : Memory} {entry : Option Nat} {items others : List Nat}
    (h : memory.Chain entry items) (h' : memory.Chain entry others) : items = others := by
  induction items generalizing entry others with
  | nil =>
    cases others with
    | nil => rfl
    | cons => simp_all
  | cons item items ih =>
    cases others with
    | nil => simp_all
    | cons other others =>
      obtain ⟨rfl, h⟩ := h
      obtain ⟨heq, h'⟩ := h'
      obtain rfl : item = other := by simpa using heq
      rw [ih h h']

/-- Only the links of the items themselves matter. -/
theorem Chain.congr {memory other : Memory} {entry : Option Nat} {items : List Nat}
    (h : memory.Chain entry items) (hlink : ∀ item ∈ items, other.link item = memory.link item) :
    other.Chain entry items := by
  induction items generalizing entry with
  | nil => exact h
  | cons item items ih =>
    refine ⟨h.1, ?_⟩
    rw [hlink item (by simp)]
    exact ih h.2 fun item hitem => hlink item (by simp [hitem])

/-- A chain whose items keep their cells is not changed by a write elsewhere. -/
theorem Chain.setLink {memory : Memory} {entry next : Option Nat} {items : List Nat} {address : Nat}
    (h : memory.Chain entry items) (hne : ∀ item ∈ items, address / 8 ≠ item / 8) :
    (memory.setLink address next).Chain entry items :=
  h.congr fun item hitem => link_setLink_of_ne (hne item hitem) memory next

/-- The path along a chain is the chain, up to the limit, and ends if the limit admits it. -/
theorem Chain.path_eq {memory : Memory} {entry : Option Nat} {items : List Nat}
    (h : memory.Chain entry items) (limit : Nat) :
    memory.path limit entry = items.take limit ∧
      memory.endsWithin limit entry = decide (items.length ≤ limit) := by
  induction items generalizing entry limit with
  | nil =>
    obtain rfl : entry = none := h
    cases limit <;> simp [path, endsWithin]
  | cons item items ih =>
    obtain ⟨rfl, h⟩ := h
    cases limit with
    | zero => simp [path, endsWithin]
    | succ limit =>
      obtain ⟨hpath, hends⟩ := ih h limit
      simp [path, endsWithin, hpath, hends]

end Memory

namespace FreeList

/-- The list consists of `items`, of which the first is the next to come off. -/
def Holds (list : FreeList) (memory : Memory) (items : List Nat) : Prop :=
  memory.Chain list.head items

/-- The addresses of `count` items, `stride` bytes apart and the first of them at `first`. -/
def row (stride first : Nat) : Nat → List Nat
  | 0 => []
  | count + 1 => first :: row stride (first + stride) count

theorem holds_empty (memory : Memory) : ({} : FreeList).Holds memory [] := rfl

theorem Holds.isEmpty {list : FreeList} {memory : Memory} {items : List Nat}
    (h : list.Holds memory items) : list.isEmpty = items.isEmpty := by
  cases items with
  | nil => simp_all [Holds, FreeList.isEmpty]
  | cons => simp_all [Holds, FreeList.isEmpty]

theorem Holds.eq_nil {list : FreeList} {memory : Memory} {items : List Nat}
    (h : list.Holds memory items) (hhead : list.head = none) : items = [] := by
  cases items with
  | nil => rfl
  | cons item items => cases hhead.symm.trans h.1

theorem Holds.eq_cons {list : FreeList} {memory : Memory} {items : List Nat} {item : Nat}
    (h : list.Holds memory items) (hhead : list.head = some item) :
    ∃ rest, items = item :: rest := by
  cases items with
  | nil => cases hhead.symm.trans h
  | cons other rest =>
    obtain rfl : item = other := Option.some.inj (hhead.symm.trans h.1)
    exact ⟨rest, rfl⟩

theorem Holds.pop? {list : FreeList} {memory : Memory} {item : Nat} {items : List Nat}
    (h : list.Holds memory (item :: items)) :
    ∃ rest, list.pop? memory = some (item, rest) ∧ rest.Holds memory items :=
  ⟨⟨memory.link item⟩, by simp [FreeList.pop?, h.1], h.2⟩

/-- A head that is the address of an item is not zero if the items are not. -/
theorem Holds.head_ne_zero {list : FreeList} {memory : Memory} {items : List Nat}
    (h : list.Holds memory items) (hpos : ∀ item ∈ items, item ≠ 0) : list.head ≠ some 0 := by
  cases items with
  | nil => simp_all [Holds]
  | cons item items =>
    rw [h.1]
    simpa using hpos item (by simp)

/-- An item that is put on the list stands in front of the others. -/
theorem Holds.push {list : FreeList} {memory : Memory} {items : List Nat} {item : Nat}
    (h : list.Holds memory items) (hpos : ∀ item ∈ items, item ≠ 0)
    (hne : ∀ other ∈ items, item / 8 ≠ other / 8) :
    (list.push item memory).1.Holds (list.push item memory).2 (item :: items) := by
  refine ⟨rfl, ?_⟩
  rw [FreeList.push, Memory.link_setLink_self memory item (h.head_ne_zero hpos)]
  exact Memory.Chain.setLink h hne

/-! ## Runs -/

/-- Chaining writes into the chained items alone, and there into the links alone. -/
theorem read_linkRow_of_ne {stride count : Nat} {memory : Memory} {item address : Nat}
    (h : ∀ k < count, (item + k * stride) / 8 ≠ address / 8) :
    (linkRow stride memory item count).read address = memory.read address := by
  induction count generalizing memory item with
  | zero => rfl
  | succ count ih =>
    rw [linkRow, ih, Memory.setLink, Memory.read_write_of_ne]
    · simpa using h 0 (by omega)
    · intro k hk
      have := h (k + 1) (by omega)
      rwa [Nat.succ_mul, Nat.add_comm _ stride, ← Nat.add_assoc] at this

theorem link_linkRow_of_ne {stride count : Nat} {memory : Memory} {item address : Nat}
    (h : ∀ k < count, (item + k * stride) / 8 ≠ address / 8) :
    (linkRow stride memory item count).link address = memory.link address := by
  rw [Memory.link, Memory.link, read_linkRow_of_ne h]

private theorem linkRow_chain {stride : Nat} (hstride : 8 ≤ stride) {head : Option Nat}
    {items : List Nat} (last : Nat) {memory : Memory} {first : Nat}
    (h : memory.Chain head items) (hhead : head ≠ some 0)
    (hne : ∀ k ≤ last, ∀ item ∈ items, (first + k * stride) / 8 ≠ item / 8) :
    ((linkRow stride memory first last).setLink (first + last * stride) head).Chain (some first)
      (row stride first (last + 1) ++ items) := by
  induction last generalizing memory first with
  | zero =>
    refine ⟨rfl, ?_⟩
    simp only [linkRow, Nat.zero_mul, Nat.add_zero, row]
    rw [Memory.link_setLink_self memory first hhead]
    exact h.setLink fun item hitem => by simpa using hne 0 (by omega) item hitem
  | succ last ih =>
    have hshift : first + (last + 1) * stride = first + stride + last * stride := by
      rw [Nat.succ_mul, Nat.add_comm _ stride, Nat.add_assoc]
    have hfar : ∀ k, (first + stride + k * stride) / 8 ≠ first / 8 := by
      intro k
      omega
    refine ⟨rfl, ?_⟩
    rw [linkRow, hshift, Memory.link_setLink_of_ne (hfar last),
      link_linkRow_of_ne fun k _ => hfar k, Memory.link_setLink_self memory first (by simp; omega)]
    refine ih (h.setLink fun item hitem => by simpa using hne 0 (by omega) item hitem) ?_
    intro k hk item hitem
    have := hne (k + 1) (by omega) item hitem
    rwa [Nat.succ_mul, Nat.add_comm _ stride, ← Nat.add_assoc] at this

/-- A run that is put on the list stands in front of the others, lowest address first. -/
theorem Holds.pushRow {list : FreeList} {memory : Memory} {items : List Nat}
    {first stride count : Nat} (h : list.Holds memory items) (hstride : 8 ≤ stride)
    (hcount : 0 < count) (hpos : ∀ item ∈ items, item ≠ 0)
    (hne : ∀ k < count, ∀ item ∈ items, (first + k * stride) / 8 ≠ item / 8) :
    ∃ longer after, list.pushRow first stride count memory = .ok (longer, after) ∧
      longer.Holds after (row stride first count ++ items) := by
  refine ⟨_, _, pushRow_of_pos hcount, ?_⟩
  have := linkRow_chain hstride (count - 1) h (h.head_ne_zero hpos) fun k hk => hne k (by omega)
  rwa [Nat.sub_add_cancel hcount] at this

/-! ## Walks -/

/-- A walk that nothing breaks off visits the path and reports whether it ended. -/
theorem traverseFrom_eq_foldl_path {β ε : Type} (memory : Memory) (visit : β → Nat → β)
    (limit : Nat) (entry : Option Nat) (seen : β) :
    traverseFrom memory (fun seen item => (.ok (visit seen item) : Except ε β)) limit entry seen =
      .ok ((memory.path limit entry).foldl visit seen, memory.endsWithin limit entry) := by
  induction limit generalizing entry seen with
  | zero => cases entry <;> simp [traverseFrom, Memory.path, Memory.endsWithin]
  | succ limit ih =>
    cases entry <;> simp [traverseFrom, Memory.path, Memory.endsWithin, ih]

end FreeList

end SlabPool
