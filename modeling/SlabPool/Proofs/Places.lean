import SlabPool.Proofs.Slots

/-!
Slots by place.

Where an allocator puts its blocks is its own matter, so two runs that are otherwise alike differ in
the addresses of their items. What does not differ is the place of an item: the number of its slab
in the pool and the number of its slot in that slab. `SlabIndex.address?` leads from places to
addresses and `SlabIndex.locate?` back, by the same test for slots that the check of the free list
uses. Where the blocks are spread out the two are inverse to each other.

Slabs are only added behind the others, so a place keeps its address (`address?_mono`).
-/

namespace SlabPool

/-- A slot, by the number of its slab and its own number there. -/
structure Place where
  slab : Nat
  index : Nat
  deriving DecidableEq, Repr

namespace SlabIndex

variable {T : ItemType}

/-- The address of the slot at a place, if there is one. -/
def address? (index : SlabIndex T) (place : Place) : Option Nat :=
  match index.slabs[place.slab]? with
  | none => none
  | some slab => if place.index < slab.capacity.val then some (slab.slot place.index) else none

def locate? (index : SlabIndex T) (item : Nat) : Option Place :=
  match index.slabs.findIdx? (·.contains item) with
  | none => none
  | some number =>
    index.slabs[number]?.map fun slab => ⟨number, (item - slab.first) / T.size⟩

variable {index : SlabIndex T} {place : Place} {item : Nat}

theorem address?_eq_some_iff : index.address? place = some item ↔
    ∃ slab, index.slabs[place.slab]? = some slab ∧ place.index < slab.capacity.val ∧
      slab.slot place.index = item := by
  unfold address?
  cases index.slabs[place.slab]? with
  | none => simp
  | some slab => simp

theorem exists_address? (h : item ∈ index.slots) : ∃ place, index.address? place = some item := by
  obtain ⟨slab, hslab, hmem⟩ := mem_slots.mp h
  obtain ⟨number, hnumber, rfl⟩ := Slab.mem_slots.mp hmem
  obtain ⟨position, hposition⟩ := List.mem_iff_getElem?.mp hslab
  exact ⟨⟨position, number⟩, address?_eq_some_iff.mpr ⟨slab, hposition, hnumber, rfl⟩⟩

/-- A place keeps its address when slabs are added. -/
theorem address?_mono {longer : SlabIndex T} (hgrow : index.slabs <+: longer.slabs)
    (h : index.address? place = some item) : longer.address? place = some item := by
  obtain ⟨slab, hslab, hlt, rfl⟩ := address?_eq_some_iff.mp h
  obtain ⟨more, hmore⟩ := hgrow
  refine address?_eq_some_iff.mpr ⟨slab, ?_, hlt, rfl⟩
  obtain ⟨hin, -⟩ := List.getElem?_eq_some_iff.mp hslab
  rw [← hmore, List.getElem?_append_left hin]
  exact hslab

namespace Spread

theorem locate?_eq_some (h : index.Spread) (haddress : index.address? place = some item) :
    index.locate? item = some place := by
  obtain ⟨slab, hslab, hlt, rfl⟩ := address?_eq_some_iff.mp haddress
  obtain ⟨hin, hget⟩ := List.getElem?_eq_some_iff.mp hslab
  have hmem : slab.slot place.index ∈ slab.slots := Slab.mem_slots.mpr ⟨_, hlt, rfl⟩
  have hfind : index.slabs.findIdx? (·.contains (slab.slot place.index)) = some place.slab := by
    rw [List.findIdx?_eq_some_iff_getElem]
    refine ⟨hin, ?_, ?_⟩
    · rw [hget, h.slab_contains_iff (List.mem_of_getElem? hslab)]
      exact hmem
    · -- a slab before it cannot have the same slot
      intro earlier hearlier hcontains
      have hfirst := List.getElem?_eq_getElem (Nat.lt_trans hearlier hin)
      rw [h.slab_contains_iff (List.getElem_mem _)] at hcontains
      exact absurd (h.eq_of_mem_slots hfirst hslab hcontains hmem) hearlier.ne
  simp only [locate?, hfind, hslab, Option.map_some]
  congr 2
  rw [Slab.slot, Nat.add_sub_cancel_left, Nat.mul_div_cancel _ T.size_pos]

theorem address?_inj (h : index.Spread) {other : Place} (hplace : index.address? place = some item)
    (hother : index.address? other = some item) : place = other := by
  have hlocate := h.locate?_eq_some hplace
  rw [h.locate?_eq_some hother] at hlocate
  exact (Option.some.inj hlocate).symm

/-- The place of an item stays the same when slabs are added. -/
theorem locate?_mono {longer : SlabIndex T} (h : index.Spread) (hlonger : longer.Spread)
    (hgrow : index.slabs <+: longer.slabs) (hitem : item ∈ index.slots) :
    ∃ place, index.locate? item = some place ∧ longer.locate? item = some place := by
  obtain ⟨place, hplace⟩ := exists_address? hitem
  exact ⟨place, h.locate?_eq_some hplace,
    hlonger.locate?_eq_some (address?_mono hgrow hplace)⟩

end Spread

end SlabIndex

end SlabPool
