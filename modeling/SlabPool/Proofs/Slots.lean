import Mathlib.Data.Finset.Card
import Mathlib.Order.Interval.Finset.Nat
import SlabPool.FreeList.Contents
import SlabPool.Pool.Basic
import SlabPool.Proofs.Lending

/-!
Where the slots of a pool lie.

The slots of a slab are a row of equal parts of its block. If the blocks of a pool are valid and
share no byte, no two slots of the pool share a byte, every slot is aligned as its items ask for,
and there are fewer slots than words: `SlabIndex.Spread` is that condition on the blocks, and the
lemmas on it are all that later modules know of addresses. The promise of allocators yields it for
every pool whose blocks are on loan (`SlabIndex.spread_of_honest`).
-/

namespace SlabPool

variable {T : ItemType} {α : Type}

/-! ### Bytes of items -/

/-- The byte at `address` belongs to the storage of `item`. -/
def ItemType.Covers (T : ItemType) (item address : Nat) : Prop :=
  item ≤ address ∧ address < item + T.size

instance (T : ItemType) (item address : Nat) : Decidable (T.Covers item address) :=
  inferInstanceAs (Decidable (_ ∧ _))

/-- Two items have no byte in common. -/
def ItemType.Apart (T : ItemType) (item other : Nat) : Prop :=
  item + T.size ≤ other ∨ other + T.size ≤ item

instance : Std.Symm T.Apart :=
  ⟨fun _ _ h => Or.symm h⟩

theorem ItemType.Apart.ne {item other : Nat} (h : T.Apart item other) : item ≠ other := by
  have hpos := T.size_pos
  rcases h with h | h <;> omega

/-- Items apart from each other begin in different cells. -/
theorem ItemType.Apart.cell_ne {item other : Nat} (h : T.Apart item other) :
    item / 8 ≠ other / 8 := by
  have height := T.eight_le_size
  rcases h with h | h <;> omega

theorem ItemType.Apart.not_covers {item other address : Nat} (h : T.Apart item other)
    (hcovers : T.Covers item address) : ¬ T.Covers other address := by
  rintro ⟨hlow, hhigh⟩
  obtain ⟨hlow', hhigh'⟩ := hcovers
  rcases h with h | h <;> omega

theorem ItemType.covers_self (T : ItemType) (item : Nat) : T.Covers item item := by
  have hpos := T.size_pos
  exact ⟨Nat.le_refl item, by omega⟩

/-! ### Rows -/

theorem FreeList.row_eq_map (stride first count : Nat) :
    FreeList.row stride first count = (List.range count).map fun k => first + k * stride := by
  induction count generalizing first with
  | zero => rfl
  | succ count ih =>
      rw [FreeList.row, ih, List.range_succ_eq_map, List.map_cons, List.map_map]
      congr 1
      · simp
      · refine List.map_congr_left ?_
        intro k _
        show first + stride + k * stride = first + (k + 1) * stride
        rw [Nat.succ_mul]
        omega

theorem FreeList.mem_row {stride first count item : Nat} :
    item ∈ FreeList.row stride first count ↔ ∃ k < count, item = first + k * stride := by
  simp [FreeList.row_eq_map, eq_comm]

@[simp] theorem FreeList.length_row (stride first count : Nat) :
    (FreeList.row stride first count).length = count := by
  simp [FreeList.row_eq_map]

theorem FreeList.pairwise_row (stride first count : Nat) :
    (FreeList.row stride first count).Pairwise fun item next => item + stride ≤ next := by
  induction count generalizing first with
  | zero => exact .nil
  | succ count ih =>
      refine .cons ?_ (ih (first + stride))
      intro next hnext
      obtain ⟨k, -, rfl⟩ := FreeList.mem_row.mp hnext
      omega

/-! ### Slabs -/

namespace Slab

def slots (slab : Slab T) : List Nat :=
  FreeList.row T.size slab.first slab.capacity.val

def bytes (slab : Slab T) : Nat :=
  T.size * slab.capacity.val

/-- The slab has a layout. -/
def Fits (slab : Slab T) : Prop :=
  slab.bytes ≤ Layout.maxSize T.align

/-- The block of a slab, as it was lent by an allocator. -/
def loan (allocator : α) (slab : Slab T) : Loan α :=
  ⟨allocator, slab.first, ⟨slab.bytes, T.align⟩⟩

theorem mem_slots {slab : Slab T} {item : Nat} :
    item ∈ slab.slots ↔ ∃ number < slab.capacity.val, item = slab.slot number :=
  FreeList.mem_row

/-- A slot lies within its slab. -/
theorem bounds_of_mem_slots {slab : Slab T} {item : Nat} (h : item ∈ slab.slots) :
    slab.first ≤ item ∧ item + T.size ≤ slab.first + slab.bytes := by
  obtain ⟨number, hnumber, rfl⟩ := mem_slots.mp h
  have hle : (number + 1) * T.size ≤ slab.capacity.val * T.size := Nat.mul_le_mul_right _ hnumber
  rw [Nat.succ_mul] at hle
  rw [slot, bytes, Nat.mul_comm T.size]
  omega

theorem slots_apart (slab : Slab T) : slab.slots.Pairwise T.Apart :=
  (FreeList.pairwise_row T.size slab.first slab.capacity.val).imp Or.inl

theorem slots_nodup (slab : Slab T) : slab.slots.Nodup :=
  slab.slots_apart.imp ItemType.Apart.ne

theorem slots_eq_map (slab : Slab T) :
    slab.slots = (List.range slab.capacity.val).map slab.slot :=
  FreeList.row_eq_map _ _ _

/-- The slots of a slab start with the address of the slab itself. -/
theorem slots_eq_cons (slab : Slab T) :
    slab.slots =
      slab.first :: FreeList.row T.size (slab.first + T.size) (slab.capacity.val - 1) := by
  obtain ⟨first, count, hcount⟩ := slab
  obtain ⟨n, rfl⟩ : ∃ n, count = n + 1 := ⟨count - 1, by omega⟩
  rfl

end Slab

/-! ### The slots of all slabs -/

namespace SlabIndex

/-- The addresses of all slots, those of the oldest slab first. -/
def slots (index : SlabIndex T) : List Nat :=
  index.slabs.flatMap Slab.slots

/-- The blocks of the slabs are valid and have no byte in common. -/
structure Spread (index : SlabIndex T) : Prop where
  first_pos : ∀ slab ∈ index.slabs, 0 < slab.first
  aligned : ∀ slab ∈ index.slabs, T.align ∣ slab.first
  bounded : ∀ slab ∈ index.slabs, slab.first + slab.bytes ≤ Word.modulus
  apart : index.slabs.Pairwise fun slab other =>
    slab.first + slab.bytes ≤ other.first ∨ other.first + other.bytes ≤ slab.first

theorem mem_slots {index : SlabIndex T} {item : Nat} :
    item ∈ index.slots ↔ ∃ slab ∈ index.slabs, item ∈ slab.slots :=
  List.mem_flatMap

theorem length_slots (index : SlabIndex T) :
    index.slots.length = Word.total index.capacities := by
  obtain ⟨slabs, reserved⟩ := index
  induction slabs with
  | nil => rfl
  | cons slab slabs ih =>
      have hhead : slab.slots.length = slab.capacity.val := FreeList.length_row _ _ _
      simp_all [slots, capacities]

@[simp] theorem slots_append (index : SlabIndex T) (slab : Slab T) :
    (index.append slab).slots = index.slots ++ slab.slots := by
  simp [slots, append]

namespace Spread

variable {index : SlabIndex T}

theorem slots_apart (h : index.Spread) : index.slots.Pairwise T.Apart := by
  refine List.pairwise_flatMap.mpr ⟨fun slab _ => slab.slots_apart, ?_⟩
  apply h.apart.imp
  intro slab other happart item hitem place hplace
  have hslab := Slab.bounds_of_mem_slots hitem
  have hother := Slab.bounds_of_mem_slots hplace
  rcases happart with happart | happart
  · exact .inl (by omega)
  · exact .inr (by omega)

theorem slots_nodup (h : index.Spread) : index.slots.Nodup :=
  h.slots_apart.imp ItemType.Apart.ne

theorem apart_of_ne (h : index.Spread) {item other : Nat} (hitem : item ∈ index.slots)
    (hother : other ∈ index.slots) (hne : item ≠ other) : T.Apart item other :=
  h.slots_apart.forall hitem hother hne

theorem slot_aligned (h : index.Spread) {item : Nat} (hitem : item ∈ index.slots) :
    T.align ∣ item := by
  obtain ⟨slab, hslab, hmem⟩ := mem_slots.mp hitem
  obtain ⟨number, -, rfl⟩ := Slab.mem_slots.mp hmem
  exact (Nat.dvd_add_right (h.aligned slab hslab)).mpr (Dvd.dvd.mul_left T.align_dvd_size number)

theorem eight_dvd_slot (h : index.Spread) {item : Nat} (hitem : item ∈ index.slots) : 8 ∣ item :=
  T.eight_dvd_align.trans (h.slot_aligned hitem)

theorem slot_pos (h : index.Spread) {item : Nat} (hitem : item ∈ index.slots) : 0 < item := by
  obtain ⟨slab, hslab, hmem⟩ := mem_slots.mp hitem
  have := h.first_pos slab hslab
  have := Slab.bounds_of_mem_slots hmem
  omega

theorem slot_lt (h : index.Spread) {item : Nat} (hitem : item ∈ index.slots) :
    item < Word.modulus := by
  obtain ⟨slab, hslab, hmem⟩ := mem_slots.mp hitem
  have := h.bounded slab hslab
  have := Slab.bounds_of_mem_slots hmem
  have := T.size_pos
  omega

/-- The test for slots is right about every slab. -/
theorem slab_contains_iff (h : index.Spread) {item : Nat} {slab : Slab T}
    (hslab : slab ∈ index.slabs) :
    slab.contains item = true ↔ item ∈ slab.slots := by
  have hpos := h.first_pos slab hslab
  have hbounded := h.bounded slab hslab
  have hbytes : T.size * slab.capacity.val < Word.modulus := by
    have : slab.bytes = T.size * slab.capacity.val := rfl
    omega
  rw [Slab.contains_iff hbytes, Slab.mem_slots]

theorem contains_iff (h : index.Spread) {item : Nat} :
    index.contains item = true ↔ item ∈ index.slots := by
  rw [SlabIndex.contains, List.any_eq_true, mem_slots]
  constructor
  · rintro ⟨slab, hslab, hcontains⟩
    exact ⟨slab, hslab, (h.slab_contains_iff hslab).mp hcontains⟩
  · rintro ⟨slab, hslab, hmem⟩
    exact ⟨slab, hslab, (h.slab_contains_iff hslab).mpr hmem⟩

/-- Two places in the list of slabs with a slot in common are one. -/
theorem eq_of_mem_slots (h : index.Spread) {item number other : Nat} {slab next : Slab T}
    (hslab : index.slabs[number]? = some slab) (hnext : index.slabs[other]? = some next)
    (hmem : item ∈ slab.slots) (hmem' : item ∈ next.slots) : number = other := by
  obtain ⟨hin, rfl⟩ := List.getElem?_eq_some_iff.mp hslab
  obtain ⟨hin', rfl⟩ := List.getElem?_eq_some_iff.mp hnext
  have hbounds := Slab.bounds_of_mem_slots hmem
  have hbounds' := Slab.bounds_of_mem_slots hmem'
  have hpos := T.size_pos
  have hapart := List.pairwise_iff_getElem.mp h.apart
  rcases Nat.lt_trichotomy number other with hlt | heq | hlt
  · have := hapart number other hin hin' hlt
    omega
  · exact heq
  · have := hapart other number hin' hin hlt
    omega

/-- There are not more slots than addresses from the lowest one on. -/
theorem length_slots_le (h : index.Spread) {low : Nat} (hlow : ∀ item ∈ index.slots, low ≤ item) :
    index.slots.length ≤ Word.modulus - low := by
  have hsubset : index.slots.toFinset ⊆ Finset.Ico low Word.modulus := by
    intro item hitem
    rw [List.mem_toFinset] at hitem
    rw [Finset.mem_Ico]
    exact ⟨hlow item hitem, h.slot_lt hitem⟩
  have hcard := Finset.card_le_card hsubset
  rwa [List.toFinset_card_of_nodup h.slots_nodup, Nat.card_Ico] at hcard

/-- The slots have different addresses other than zero, and there are not so many of those. -/
theorem length_slots_lt (h : index.Spread) : index.slots.length < Word.modulus := by
  -- zero is no slot, so one word is left over
  have hle := h.length_slots_le fun item hitem => h.slot_pos hitem
  have hpos : 0 < Word.modulus := by decide
  omega

end Spread

/-- The blocks of a pool, as they were lent by its allocator. -/
def loans (allocator : α) (index : SlabIndex T) : List (Loan α) :=
  index.slabs.map (Slab.loan allocator)

/-- Where the blocks of a pool are on loan from honest allocators, its slots lie as they should. -/
theorem spread_of_honest [DecidableEq α] {allocator : α} {index : SlabIndex T}
    {calls : List (Call α)} (hhonest : Honest calls)
    (hle : (index.loans allocator : Multiset (Loan α)) ≤ SlabPool.loans calls) :
    index.Spread := by
  have hvalid : ∀ slab ∈ index.slabs, (slab.loan allocator).Valid := by
    intro slab hslab
    refine hhonest.valid _ (Multiset.mem_of_le hle ?_)
    exact Multiset.mem_coe.mpr (List.mem_map_of_mem hslab)
  refine ⟨?_, ?_, ?_, ?_⟩
  · exact fun slab hslab => (hvalid slab hslab).1
  · exact fun slab hslab => (hvalid slab hslab).2.1
  · exact fun slab hslab => (hvalid slab hslab).2.2
  · -- two positions in the list of slabs are two blocks on loan, even where the slabs are equal
    apply List.pairwise_iff_forall_sublist.mpr
    intro slab other hsublist
    have hpair : slab.loan allocator ::ₘ {other.loan allocator} ≤
        (index.loans allocator : Multiset (Loan α)) :=
      Multiset.coe_le.mpr (hsublist.map (Slab.loan allocator)).subperm
    exact hhonest.apart (hpair.trans hle)

end SlabIndex

namespace Pool

/-! ### Capacities -/

variable {T : ItemType} {α : Type} {pool after : Pool T α}

theorem length_slots (pool : Pool T α) : pool.index.slots.length = pool.capacity :=
  pool.index.length_slots

theorem checkedCapacity_of_spread (h : pool.index.Spread) :
    pool.checkedCapacity = .ok pool.capacity := by
  rw [checkedCapacity_eq_ok_iff, ← pool.length_slots]
  exact ⟨rfl, h.length_slots_lt⟩

theorem capacities_append {slabs : List (Slab T)}
    (h : after.index.slabs = pool.index.slabs ++ slabs) :
    after.capacities = pool.capacities ++ slabs.map (·.capacity.val) := by
  simp [Pool.capacities, SlabIndex.capacities, h]

theorem capacity_append {slabs : List (Slab T)}
    (h : after.index.slabs = pool.index.slabs ++ slabs) :
    after.capacity = pool.capacity + Word.total (slabs.map (·.capacity.val)) := by
  rw [Pool.capacity, capacities_append h, Word.total_append]
  rfl

end Pool

end SlabPool
