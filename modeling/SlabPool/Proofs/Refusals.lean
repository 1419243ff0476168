import SlabPool.Proofs.Turnover

/-!
How growth is refused.

A pool makes room to list a slab before it asks for the block of the slab. So growth can be refused
three times over, one after the other: by the heap, which has no room for the list, by the pool
itself, because there is no layout for so many slots, and by the allocator. Each of the three has
one lemma here that says what the answer is, what becomes of the pool, what is reported, and which
calls were made. No later request is made where an earlier one was refused.

One of the refusals can come without any call: where there is room in the list already, and no
layout for the slab (`Pool.calls_grow_iff`).
-/

namespace SlabPool

variable {α σ : Type} {T : ItemType}

/-! ### Making room -/

namespace SlabIndex

/-- There is no room in the list for one more slab, and the heap grants none. -/
def Refused (S : Supply α σ) (index : SlabIndex T) (state : σ) : Prop :=
  index.reserved ≤ index.slabs.length ∧
    (S.reserve (entrySize * index.nextReserved) state).1 = false

instance (S : Supply α σ) (index : SlabIndex T) (state : σ) : Decidable (index.Refused S state) :=
  inferInstanceAs (Decidable (_ ∧ _))

/-- The same list, with room for one more slab. -/
def roomy (index : SlabIndex T) : SlabIndex T :=
  if index.slabs.length < index.reserved then index
  else { index with reserved := index.nextReserved }

/-- The calls it takes to make room for one more slab. -/
def roomCalls (index : SlabIndex T) : List (Call α) :=
  if index.slabs.length < index.reserved then []
  else [.reserve (entrySize * index.nextReserved) true]

@[simp] theorem slabs_roomy (index : SlabIndex T) : index.roomy.slabs = index.slabs := by
  unfold roomy
  split
  · rfl
  · rfl

theorem reserve_of_refused {S : Supply α σ} {index : SlabIndex T} {record : Recorded α σ}
    (h : index.Refused S record.state) :
    ∃ after, index.reserve S.recorded record = (none, after) ∧
      after.calls = .reserve (entrySize * index.nextReserved) false :: record.calls := by
  obtain ⟨hfull, hrefused⟩ := h
  rw [reserve, if_neg (Nat.not_lt.mpr hfull)]
  simp only [Supply.recorded, hrefused]
  exact ⟨_, rfl, rfl⟩

theorem reserve_of_not_refused {S : Supply α σ} {index : SlabIndex T} {record : Recorded α σ}
    (h : ¬ index.Refused S record.state) :
    ∃ after, index.reserve S.recorded record = (some index.roomy, after) ∧
      after.calls = index.roomCalls ++ record.calls := by
  by_cases hroom : index.slabs.length < index.reserved
  · rw [reserve, roomy, roomCalls, if_pos hroom, if_pos hroom, if_pos hroom]
    exact ⟨record, rfl, rfl⟩
  · have hgranted : (S.reserve (entrySize * index.nextReserved) record.state).1 = true := by
      by_contra hrefused
      exact h ⟨Nat.not_lt.mp hroom, Bool.eq_false_of_not_eq_true hrefused⟩
    rw [reserve, roomy, roomCalls, if_neg hroom, if_neg hroom, if_neg hroom]
    simp only [Supply.recorded, hgranted]
    exact ⟨_, rfl, rfl⟩

end SlabIndex

/-! ### The three refusals of growth -/

namespace Pool

variable {S : Supply α σ} {pool : Pool T α} {world : World (Recorded α σ)}

theorem grow_of_refused (capacity : Capacity) (h : pool.index.Refused S world.supply.state) :
    let turn := pool.grow S.recorded capacity world
    turn.result = .error (.refused (indexFailure (Word.saturatingAdd pool.numSlabs 1))) ∧
      turn.pool = pool ∧
      turn.world.supply.calls =
        .reserve (SlabIndex.entrySize * pool.index.nextReserved) false :: world.supply.calls ∧
      turn.events = [.indexRefused T.name (Word.saturatingAdd pool.numSlabs 1)] := by
  obtain ⟨after, hreserve, hcalls⟩ := SlabIndex.reserve_of_refused h
  simp only [grow, hreserve]
  exact ⟨trivial, trivial, hcalls, trivial⟩

theorem grow_of_oversized {capacity : Capacity} (h : ¬ pool.index.Refused S world.supply.state)
    (hsize : Layout.maxSize T.align < T.size * capacity.val) :
    let turn := pool.grow S.recorded capacity world
    turn.result = .error (.refused ⟨Word.saturatingMul T.size capacity.val, T.align⟩) ∧
      turn.pool = { pool with index := pool.index.roomy } ∧
      turn.world.supply.calls = pool.index.roomCalls ++ world.supply.calls ∧
      turn.events =
        [.slabRefused T.name capacity.val ⟨Word.saturatingMul T.size capacity.val, T.align⟩] := by
  obtain ⟨after, hreserve, hcalls⟩ := SlabIndex.reserve_of_not_refused h
  have hlayout : Slab.layout T capacity =
      .error ⟨Word.saturatingMul T.size capacity.val, T.align⟩ := by
    simp only [Slab.layout, Layout.array?_eq_none_iff.mpr hsize]
  simp only [grow, hreserve, Slab.allocate, hlayout]
  exact ⟨trivial, trivial, hcalls, trivial⟩

/-- Where there is a layout, the allocator is asked once, and what it answers decides. -/
theorem grow_of_layout {capacity : Capacity} (h : ¬ pool.index.Refused S world.supply.state)
    (hsize : T.size * capacity.val ≤ Layout.maxSize T.align) :
    let turn := pool.grow S.recorded capacity world
    ∃ answer,
      turn.world.supply.calls =
        .allocate pool.allocator ⟨T.size * capacity.val, T.align⟩ answer ::
          (pool.index.roomCalls ++ world.supply.calls) ∧
      (∀ stop, answer = .error stop →
        turn.result = .error stop ∧ turn.pool = { pool with index := pool.index.roomy } ∧
        ∀ failure, stop = .refused failure →
          turn.events = [.slabRefused T.name capacity.val failure]) ∧
      ∀ block, answer = .ok block →
        turn.result = .ok () ∧ turn.pool.index = pool.index.roomy.append ⟨block, capacity⟩ ∧
        turn.events = [.slabAllocated T.name capacity.val (pool.numSlabs + 1)] := by
  obtain ⟨after, hreserve, hroom⟩ := SlabIndex.reserve_of_not_refused h
  have hlayout : Slab.layout T capacity = .ok ⟨T.size * capacity.val, T.align⟩ :=
    Slab.layout_eq_ok_iff.mpr ⟨hsize, rfl⟩
  obtain ⟨answer, last, hanswer, hcalls⟩ :=
    Slab.allocate_of_layout S pool.allocator hlayout after
  have hsupply : (pool.grow S.recorded capacity world).world.supply = last := by
    rw [supply_grow S.recorded hreserve, hanswer]
  refine ⟨answer, by rw [hsupply, hcalls, hroom], ?_, ?_⟩
  · rintro stop rfl
    simp only [grow, hreserve, hanswer, Except.map]
    cases stop with
    | refused failure => exact ⟨rfl, rfl, fun _ h => by cases h; rfl⟩
    | fault fault => exact ⟨rfl, rfl, fun _ h => by cases h⟩
  · rintro block rfl
    have hrow := @FreeList.pushRow_of_pos pool.free block T.size capacity.val world.memory
      capacity.property
    simp only [grow, hreserve, hanswer, Except.map, hrow]
    simp [SlabIndex.append, numSlabs]

end Pool

end SlabPool
