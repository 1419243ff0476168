import SlabPool.Pool.Check
import SlabPool.Proofs.Slots
import SlabPool.Session.Kind

/-!
What the check of the free slots finds out.

The check follows the links for as many steps as the pool has slots, and remembers nothing on its
way. That is enough, whatever the links are and wherever the list begins. A way along the links that
ends passes no address twice, because from the second visit on it would have to be the whole way
once more (`Memory.Chain.nodup`). If it also keeps to the slots of the pool, it cannot be longer
than there are slots, so a list that goes on beyond that number is never a healthy one.

Main statement: `Pool.check_decides`. The check succeeds exactly if the pool is `Healthy`, and
otherwise tells the first entry that is no slot (`firstForeign?`), or else that the list goes on
(`Overlong`). The slabs have to be spread out for that; of the links nothing is assumed.
-/

namespace SlabPool

/-! ### Ways along the links -/

namespace Memory

variable {memory : Memory} {entry : Option Nat}

/-- The way from an item in the middle of a way is the rest of that way. -/
theorem Chain.of_append {before after : List Nat} {item : Nat}
    (h : memory.Chain entry (before ++ item :: after)) :
    memory.Chain (some item) (item :: after) := by
  induction before generalizing entry with
  | nil =>
      obtain ⟨-, hrest⟩ := h
      exact ⟨rfl, hrest⟩
  | cons first before ih => exact ih h.2

theorem Chain.nodup {items : List Nat} (h : memory.Chain entry items) : items.Nodup := by
  induction items generalizing entry with
  | nil => exact List.nodup_nil
  | cons item items ih =>
      obtain ⟨-, hrest⟩ := h
      refine List.nodup_cons.mpr ⟨?_, ih hrest⟩
      intro hmem
      obtain ⟨before, after, rfl⟩ := List.append_of_mem hmem
      -- the way from the second visit on is the way from the first visit on, but shorter
      have hwhole : memory.Chain (some item) (item :: (before ++ item :: after)) := ⟨rfl, hrest⟩
      have hlength := congrArg List.length (hwhole.unique hrest.of_append)
      simp only [List.length_cons, List.length_append] at hlength
      omega

/-- A way that ends within the limit is the path. -/
theorem chain_path {limit : Nat} (h : memory.endsWithin limit entry = true) :
    memory.Chain entry (memory.path limit entry) := by
  induction limit generalizing entry with
  | zero =>
      cases entry with
      | none => rfl
      | some item => cases h
  | succ limit ih =>
      cases entry with
      | none => rfl
      | some item => exact ⟨rfl, ih h⟩

/-- The way goes on beyond the limit exactly if there is one entry more. -/
theorem length_path_succ_iff {limit : Nat} :
    (memory.path (limit + 1) entry).length = limit + 1 ↔
      memory.endsWithin limit entry = false := by
  induction limit generalizing entry with
  | zero =>
      cases entry with
      | none => simp [path, endsWithin]
      | some item => cases hlink : memory.link item <;> simp [path, endsWithin, hlink]
  | succ limit ih =>
      cases entry with
      | none => simp [path, endsWithin]
      | some item =>
          rw [path, endsWithin, List.length_cons, Nat.add_right_cancel_iff]
          exact ih

end Memory

namespace Pool

variable {T : ItemType} {α : Type} {pool : Pool T α} {memory : Memory}

/-! ### Healthy pools -/

/-- The links from the head lead over slots of the pool alone, and end. -/
def Healthy (pool : Pool T α) (memory : Memory) : Prop :=
  ∃ items, pool.free.Holds memory items ∧ items ⊆ pool.index.slots

/-- The first of so many entries as the pool has slots that is not itself a slot. -/
def firstForeign? (pool : Pool T α) (memory : Memory) : Option Nat :=
  (memory.path pool.capacity pool.free.head).find? fun entry => !pool.index.contains entry

/-- So many entries as the pool has slots are all slots, and another entry follows. -/
def Overlong (pool : Pool T α) (memory : Memory) : Prop :=
  memory.path pool.capacity pool.free.head ⊆ pool.index.slots ∧
    (memory.path (pool.capacity + 1) pool.free.head).length = pool.capacity + 1

theorem firstForeign?_eq_none_iff (h : pool.index.Spread) :
    pool.firstForeign? memory = none ↔
      memory.path pool.capacity pool.free.head ⊆ pool.index.slots := by
  rw [firstForeign?, List.find?_eq_none]
  refine forall₂_congr fun entry _ => ?_
  rw [← h.contains_iff, Bool.not_eq_true', Bool.not_eq_false]

theorem firstForeign?_eq_some_iff (h : pool.index.Spread) {entry : Nat} :
    pool.firstForeign? memory = some entry ↔
      entry ∉ pool.index.slots ∧ ∃ before after,
        memory.path pool.capacity pool.free.head = before ++ entry :: after ∧
          before ⊆ pool.index.slots := by
  rw [firstForeign?, List.find?_eq_some_iff_append, ← h.contains_iff, Bool.not_eq_true',
    Bool.not_eq_true]
  refine and_congr_right fun _ => exists₂_congr fun before after => and_congr_right fun _ => ?_
  refine forall₂_congr fun item _ => ?_
  rw [← h.contains_iff, Bool.not_not]

/-- There are only so many slots, and a way that ends passes none of them twice. -/
theorem length_le_of_holds {items : List Nat} (hholds : pool.free.Holds memory items)
    (hsubset : items ⊆ pool.index.slots) : items.length ≤ pool.capacity := by
  rw [← pool.length_slots]
  exact (Memory.Chain.nodup hholds).length_le_of_subset hsubset

theorem healthy_iff (h : pool.index.Spread) :
    pool.Healthy memory ↔ pool.firstForeign? memory = none ∧
      memory.endsWithin pool.capacity pool.free.head = true := by
  rw [firstForeign?_eq_none_iff h]
  constructor
  · rintro ⟨items, hholds, hsubset⟩
    have hlength := length_le_of_holds hholds hsubset
    obtain ⟨hpath, hends⟩ := Memory.Chain.path_eq hholds pool.capacity
    rw [hpath, hends, List.take_of_length_le hlength]
    exact ⟨hsubset, decide_eq_true hlength⟩
  · rintro ⟨hsubset, hends⟩
    exact ⟨_, Memory.chain_path hends, hsubset⟩

theorem overlong_iff (h : pool.index.Spread) :
    pool.Overlong memory ↔ pool.firstForeign? memory = none ∧
      memory.endsWithin pool.capacity pool.free.head = false := by
  rw [firstForeign?_eq_none_iff h, Overlong, Memory.length_path_succ_iff]

/-! ### The check -/

/-- The walk of the check visits the path, up to the first entry that is no slot. -/
theorem traverseFrom_checkEntry (pool : Pool T α) (memory : Memory) (limit : Nat)
    (entry : Option Nat) :
    FreeList.traverseFrom memory (fun () item => pool.checkEntry item) limit entry () =
      match (memory.path limit entry).find? fun item => !pool.index.contains item with
      | some item => .error (.foreignEntry T.name item)
      | none => .ok ((), memory.endsWithin limit entry) := by
  induction limit generalizing entry with
  | zero => cases entry <;> rfl
  | succ limit ih =>
      cases entry with
      | none => rfl
      | some item =>
          rw [FreeList.traverseFrom, Memory.path, List.find?_cons, checkEntry]
          cases pool.index.contains item with
          | true => exact ih (memory.link item)
          | false => rfl

theorem check_eq (h : pool.index.Spread) (memory : Memory) :
    pool.check memory =
      match pool.firstForeign? memory with
      | some entry => .error (.foreignEntry T.name entry)
      | none =>
        if memory.endsWithin pool.capacity pool.free.head then .ok ()
        else .error (.endlessList T.name pool.capacity) := by
  simp only [check, checkedCapacity_of_spread h, FreeList.traverse, traverseFrom_checkEntry]
  rw [← firstForeign?]
  cases pool.firstForeign? memory with
  | some entry => rfl
  | none => cases memory.endsWithin pool.capacity pool.free.head <;> rfl

theorem check_eq_ok_iff (h : pool.index.Spread) :
    pool.check memory = .ok () ↔ pool.Healthy memory := by
  rw [check_eq h, healthy_iff h]
  cases pool.firstForeign? memory with
  | some entry => simp
  | none => cases memory.endsWithin pool.capacity pool.free.head <;> simp

theorem check_eq_error_iff (h : pool.index.Spread) {fault : Fault} :
    pool.check memory = .error fault ↔
      (∃ entry, pool.firstForeign? memory = some entry ∧ fault = .foreignEntry T.name entry) ∨
        (pool.Overlong memory ∧ fault = .endlessList T.name pool.capacity) := by
  rw [check_eq h, overlong_iff h]
  cases pool.firstForeign? memory with
  | some entry => simp [eq_comm (b := fault)]
  | none => cases memory.endsWithin pool.capacity pool.free.head <;> simp [eq_comm (b := fault)]

/-- Whatever the links are and wherever the list begins, the check succeeds exactly if the list
leads through slots of the pool to an end. Otherwise it raises one of two faults: the first entry is
named that is no slot, or the list goes on after as many slots as there are. -/
theorem check_decides (h : pool.index.Spread) (memory : Memory) :
    (pool.check memory = .ok () ↔ pool.Healthy memory) ∧
    (∀ items, pool.free.Holds memory items → items ⊆ pool.index.slots → items.Nodup) ∧
    (∀ fault, pool.check memory = .error fault ↔
      (∃ entry, fault = .foreignEntry T.name entry ∧ entry ∉ pool.index.slots ∧
        ∃ before after, memory.path pool.capacity pool.free.head = before ++ entry :: after ∧
          before ⊆ pool.index.slots) ∨
      (fault = .endlessList T.name pool.capacity ∧ pool.Overlong memory)) ∧
    (∀ address entry, Fault.message address (.foreignEntry T.name entry) =
      "free list of pool of " ++ T.name ++ " links to " ++ address entry ++
        ", which is not an item of this pool") ∧
    ∀ address, Fault.message address (.endlessList T.name pool.capacity) =
      "free list of pool of " ++ T.name ++ " has more entries than the pool has capacity (" ++
        toString pool.capacity ++ "), so it contains a cycle (was an item released twice?)" := by
  refine ⟨check_eq_ok_iff h, fun items hholds _ => Memory.Chain.nodup hholds, ?_,
    fun _ _ => rfl, fun _ => rfl⟩
  intro fault
  rw [check_eq_error_iff h]
  refine or_congr (exists_congr fun entry => ?_) and_comm
  rw [firstForeign?_eq_some_iff h, and_comm]

/-- One of two slots was released twice in a row, and links to itself. -/
def releasedTwice : Pool Kind.pair.itemType Unit where
  allocator := ()
  index := { slabs := [⟨4096, ⟨2, by decide⟩⟩], reserved := 4 }
  free := ⟨some 4112⟩

theorem check_releasedTwice :
    let memory := Memory.setLink {} 4112 (some 4112)
    releasedTwice.index.Spread ∧
      releasedTwice.check memory = .error (.endlessList "[u64; 2]" 2) := by
  intro memory
  have hspread : releasedTwice.index.Spread := by
    refine ⟨?_, ?_, ?_, List.pairwise_singleton _ _⟩
    · decide
    · decide
    · decide
  refine ⟨hspread, ?_⟩
  obtain ⟨-, -, herror, -⟩ := check_decides hspread memory
  exact (herror _).mpr (.inr ⟨rfl, by decide +kernel, by decide +kernel⟩)

end Pool

end SlabPool
