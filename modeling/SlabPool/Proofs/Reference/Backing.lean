import SlabPool.Proofs.Reference
import SlabPool.Proofs.Turnover

/-!
The surroundings of a pool and of its machine.

A pool and the machine that stands for it ask their surroundings the same questions, as long as they
list the same slabs and have the same room for more. This module compares the two where they do so,
for any surroundings whatever: in growth (`grow_agrees`), and at the end of all slabs
(`handBack_eq`). Neither the free list nor memory has a part in it.
-/

namespace SlabPool.StackPool

variable {T : ItemType} {α σ : Type}

/-- The machine lists the slabs of the pool, and has its counts. -/
structure Backs (stack : StackPool T α) (pool : Pool T α) : Prop where
  allocator : stack.allocator = pool.allocator
  slabs : stack.slabs = pool.index.slabs
  reserved : stack.reserved = pool.index.reserved
  acquired : stack.acquired = pool.acquired

/-- The machine grew as the pool did. -/
structure Agrees (stack : StackPool T α) (capacity : Capacity) (answer : Answer T α σ Unit)
    (turn : Turn T α σ Unit) : Prop where
  result_eq : turn.result = answer.result
  supply_eq : turn.world.supply = answer.supply
  backs : answer.pool.Backs turn.pool
  contents_eq : answer.pool.contents = stack.contents
  free_of_error : ∀ stop, answer.result = .error stop → answer.pool.free = stack.free
  free_of_ok : answer.result = .ok () →
    answer.pool.free = row stack.slabs.length capacity.val ++ stack.free

/-- The limit on the size of a block, and the error where it is passed, in numbers. -/
theorem layout_eq (T : ItemType) (capacity : Capacity) :
    Slab.layout T capacity =
      if 9223372036854775808 - T.align < T.size * capacity.val then
        .error ⟨min (T.size * capacity.val) Word.max, T.align⟩
      else
        .ok ⟨T.size * capacity.val, T.align⟩ := by
  have hmax : Layout.maxSize T.align = 9223372036854775808 - T.align := rfl
  rw [Slab.layout, Layout.array?, hmax]
  by_cases hsize : T.size * capacity.val ≤ 9223372036854775808 - T.align
  · rw [if_pos hsize, if_neg (by omega)]
  · rw [if_neg hsize, if_pos (by omega)]
    rfl

/-- The error where the list of slabs gets no room, in numbers. -/
theorem indexFailure_eq (count : Nat) :
    Pool.indexFailure (Word.saturatingAdd count 1) = ⟨min (16 * (count + 1)) Word.max, 8⟩ := by
  have hmax : 16 ≤ Word.max := by decide
  unfold Pool.indexFailure Word.saturatingMul Word.saturatingAdd SlabIndex.entrySize
  congr 1
  omega

/-- Once there is room to list the slab. -/
theorem addSlab_agrees (S : Supply α σ) {stack : StackPool T α} {pool : Pool T α}
    {index : SlabIndex T} {world : World σ} {supply : σ} (capacity : Capacity)
    (hbacks : stack.Backs { pool with index })
    (hreserve : pool.index.reserve S world.supply = (some index, supply)) :
    stack.Agrees capacity (stack.addSlab S capacity supply) (pool.grow S capacity world) := by
  obtain ⟨hallocator, hslabs, hreserved, hacquired⟩ := hbacks
  by_cases hsize : 9223372036854775808 - T.align < T.size * capacity.val
  · simp only [Pool.grow, hreserve, Slab.allocate, layout_eq, addSlab, if_pos hsize]
    exact ⟨rfl, rfl, ⟨hallocator, hslabs, hreserved, hacquired⟩, rfl, fun _ _ => rfl, by rintro ⟨⟩⟩
  · simp only [Pool.grow, hreserve, Slab.allocate, layout_eq, addSlab, if_neg hsize]
    rw [hallocator]
    rcases S.allocate pool.allocator ⟨T.size * capacity.val, T.align⟩ supply with
      ⟨(failure | fault) | block, after⟩
    · exact ⟨rfl, rfl, ⟨hallocator, hslabs, hreserved, hacquired⟩, rfl, fun _ _ => rfl,
        by rintro ⟨⟩⟩
    · exact ⟨rfl, rfl, ⟨hallocator, hslabs, hreserved, hacquired⟩, rfl, fun _ _ => rfl,
        by rintro ⟨⟩⟩
    · have hrow := @FreeList.pushRow_of_pos pool.free block T.size capacity.val world.memory
        capacity.property
      simp only [hrow]
      refine ⟨rfl, rfl, ⟨rfl, ?_, hreserved, hacquired⟩, rfl, by rintro _ ⟨⟩, fun _ => rfl⟩
      rw [hslabs]
      rfl

theorem grow_agrees (S : Supply α σ) {stack : StackPool T α} {pool : Pool T α}
    (hbacks : stack.Backs pool) (capacity : Capacity) (world : World σ) :
    stack.Agrees capacity (stack.grow S capacity world.supply) (pool.grow S capacity world) := by
  obtain ⟨hallocator, hslabs, hreserved, hacquired⟩ := hbacks
  have hnext : SlabIndex.entrySize * pool.index.nextReserved = 16 * max 4 (2 * stack.reserved) := by
    rw [hreserved]
    rfl
  by_cases hroom : stack.slabs.length < stack.reserved
  · have hreserve : pool.index.reserve S world.supply = (some pool.index, world.supply) := by
      rw [SlabIndex.reserve, if_pos (by rwa [← hslabs, ← hreserved])]
    rw [grow, if_pos hroom]
    exact addSlab_agrees S capacity ⟨hallocator, hslabs, hreserved, hacquired⟩ hreserve
  · have hroom' : ¬ pool.index.slabs.length < pool.index.reserved := by rwa [← hslabs, ← hreserved]
    rw [grow, if_neg hroom]
    dsimp only
    rcases hanswer : S.reserve (16 * max 4 (2 * stack.reserved)) world.supply with ⟨_ | _, supply⟩
    · have hreserve : pool.index.reserve S world.supply = (none, supply) := by
        rw [SlabIndex.reserve, if_neg hroom', hnext, hanswer]
      simp only [Pool.grow, hreserve, indexFailure_eq, Pool.numSlabs, ← hslabs]
      exact ⟨rfl, rfl, ⟨hallocator, hslabs, hreserved, hacquired⟩, rfl, fun _ _ => rfl,
        by rintro ⟨⟩⟩
    · let index : SlabIndex T := { pool.index with reserved := max 4 (2 * stack.reserved) }
      have hreserve : pool.index.reserve S world.supply = (some index, supply) := by
        rw [SlabIndex.reserve, if_neg hroom', hnext, hanswer]
        simp only [SlabIndex.nextReserved, ← hreserved, index]
      have hbacks : Backs { stack with reserved := index.reserved } { pool with index } :=
        ⟨hallocator, hslabs, rfl, hacquired⟩
      -- the free slots and the contents do not depend on the room
      obtain ⟨hresult, hsupply, hbacks, hcontents, hstop, hok⟩ :=
        addSlab_agrees S capacity hbacks hreserve
      exact ⟨hresult, hsupply, hbacks, hcontents, hstop, hok⟩

/-! ### Acquisitions of the machine -/

theorem acquire_of_take (S : Supply α σ) {stack next : StackPool T α} {place : Place}
    (h : stack.take = (.ok place, next)) (supply : σ) :
    stack.acquire S supply = { result := .ok place, supply, pool := next } := by
  cases hfree : stack.free with
  | nil =>
      rw [take, hfree] at h
      cases h
  | cons first rest => simp only [acquire, hfree, h]

theorem acquire_of_failed (S : Supply α σ) {stack : StackPool T α} (hempty : stack.free = [])
    {supply : σ} {stop : Stop}
    (hstop : (stack.grow S stack.nextGrowth supply).result = .error stop) :
    stack.acquire S supply =
      { stack.grow S stack.nextGrowth supply with result := .error stop } := by
  simp only [acquire, hempty, hstop]

theorem acquire_of_added (S : Supply α σ) {stack : StackPool T α} (hempty : stack.free = [])
    {supply : σ} (hok : (stack.grow S stack.nextGrowth supply).result = .ok ()) :
    let growth := stack.grow S stack.nextGrowth supply
    stack.acquire S supply =
      { growth with result := growth.pool.take.1, pool := growth.pool.take.2 } := by
  simp only [acquire, hempty, hok]

theorem Backs.nextGrowth_eq {stack : StackPool T α} {pool : Pool T α} (h : stack.Backs pool) :
    stack.nextGrowth = pool.nextGrowth := by
  apply Subtype.ext
  show max 8 stack.acquired = max 8 pool.acquired
  rw [h.acquired]

/-! ### The end of all slabs -/

/-- Blocks are handed back with the layouts of their slabs. -/
theorem handBack_eq (S : Supply α σ) (allocator : α) {slabs : List (Slab T)}
    (hfits : ∀ slab ∈ slabs, slab.Fits) (supply : σ) :
    handBack S allocator slabs supply = Slab.releaseAll S allocator slabs supply := by
  induction slabs generalizing supply with
  | nil => rfl
  | cons slab slabs ih =>
      have hlayout : Slab.layout T slab.capacity = .ok ⟨slab.bytes, T.align⟩ :=
        Slab.layout_eq_ok_iff.mpr ⟨hfits slab (by simp), rfl⟩
      have hrest := ih fun other hother => hfits other (by simp [hother])
      simp only [handBack, Slab.releaseAll, Slab.release, hlayout, Slab.bytes]
      rcases S.release allocator slab.first ⟨T.size * slab.capacity.val, T.align⟩ supply with
        ⟨fault | _, after⟩
      · rfl
      · exact hrest after

end SlabPool.StackPool
