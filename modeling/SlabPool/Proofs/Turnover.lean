import SlabPool.Pool.Blueprint
import SlabPool.Pool.Ending
import SlabPool.Proofs.Exchange
import SlabPool.Proofs.Slots

/-!
How blocks come to a pool and go from it.

Growth is the only operation that asks for a block, and the end of all slabs the only one that hands
blocks back. Everything the two can come to on a recorded supply is said here once, with the calls
they make: `Pool.Growth` lists the ways growth can end, `HandBack` those of giving slabs back.
Nothing later unfolds either of them.

A pool whose slabs all fit their layouts hands back exactly what it was lent, because the layout is
computed from the same capacity both times.
-/

namespace SlabPool

variable {T : ItemType} {α σ : Type}

/-! ### Growth -/

/-- What adding a slab of `capacity` slots to `pool` can come to. -/
inductive Pool.Growth (pool : Pool T α) (capacity : Capacity) (world : World (Recorded α σ))
    (turn : Turn T α (Recorded α σ) Unit) : Prop
  | failed (stop : Stop) (reserved : Nat)
      (result_eq : turn.result = .error stop)
      (pool_eq : turn.pool = { pool with index := { pool.index with reserved } })
      (memory_eq : turn.world.memory = world.memory)
      (idle : Idle world.supply.calls turn.world.supply.calls)
  | added (slab : Slab T) (reserved : Nat) (free : FreeList) (calls : List (Call α))
      (result_eq : turn.result = .ok ())
      (capacity_eq : slab.capacity = capacity)
      (fits : slab.Fits)
      (linked : pool.free.pushRow slab.first T.size slab.capacity.val world.memory =
        .ok (free, turn.world.memory))
      (pool_eq : turn.pool =
        { pool with index := { slabs := pool.index.slabs ++ [slab], reserved }, free })
      (idle : Idle world.supply.calls calls)
      (calls_eq : turn.world.supply.calls =
        .allocate pool.allocator ⟨slab.bytes, T.align⟩ (.ok slab.first) :: calls)

/-- Reserving room moves no block, and leaves the slabs alone. -/
theorem SlabIndex.reserve_recorded (S : Supply α σ) (index : SlabIndex T)
    (record : Recorded α σ) :
    Idle record.calls (index.reserve S.recorded record).2.calls ∧
      ∀ grown, (index.reserve S.recorded record).1 = some grown →
        ∃ reserved, grown = { index with reserved } := by
  simp only [SlabIndex.reserve]
  split
  · refine ⟨Idle.refl _, ?_⟩
    rintro grown ⟨⟩
    exact ⟨index.reserved, rfl⟩
  · simp only [Supply.recorded]
    cases (S.reserve (SlabIndex.entrySize * index.nextReserved) record.state).1 with
    | true =>
        refine ⟨(Idle.refl _).cons trivial, ?_⟩
        rintro grown ⟨⟩
        exact ⟨index.nextReserved, rfl⟩
    | false =>
        refine ⟨(Idle.refl _).cons trivial, ?_⟩
        rintro grown ⟨⟩

/-- A slab is allocated by one request for a block. -/
theorem Slab.allocate_of_layout (S : Supply α σ) (allocator : α) {capacity : Capacity}
    {layout : Layout} (hlayout : Slab.layout T capacity = .ok layout) (record : Recorded α σ) :
    ∃ answer after, Slab.allocate S.recorded allocator T capacity record =
        (answer.map fun block => ⟨block, capacity⟩, after) ∧
      after.calls = .allocate allocator layout answer :: record.calls := by
  simp only [Slab.allocate, hlayout, Supply.recorded]
  cases (S.allocate allocator layout record.state).1 with
  | error stop => exact ⟨.error stop, _, rfl, rfl⟩
  | ok block => exact ⟨.ok block, _, rfl, rfl⟩

/-- A slab is allocated by one request for a block of its size, or not at all. -/
theorem Slab.allocate_recorded (S : Supply α σ) (allocator : α) (capacity : Capacity)
    (record : Recorded α σ) :
    let answer := Slab.allocate S.recorded allocator T capacity record
    (∃ stop, answer.1 = .error stop ∧ Idle record.calls answer.2.calls) ∨
      (∃ slab : Slab T, answer.1 = .ok slab ∧ slab.capacity = capacity ∧ slab.Fits ∧
        answer.2.calls =
          .allocate allocator ⟨slab.bytes, T.align⟩ (.ok slab.first) :: record.calls) := by
  intro answer
  cases hlayout : Slab.layout T capacity with
  | error failure =>
      have hanswer : answer = (.error (.refused failure), record) := by
        simp only [answer, Slab.allocate, hlayout]
      refine .inl ⟨.refused failure, ?_, ?_⟩
      · rw [hanswer]
      · rw [hanswer]
        exact Idle.refl _
  | ok layout =>
      obtain ⟨block, after, hanswer, hcalls⟩ := Slab.allocate_of_layout S allocator hlayout record
      have hanswer : answer = _ := hanswer
      obtain ⟨hfits, rfl⟩ := Slab.layout_eq_ok_iff.mp hlayout
      rw [hanswer]
      cases block with
      | error stop =>
          refine .inl ⟨stop, rfl, ?_⟩
          rw [hcalls]
          exact (Idle.refl _).cons trivial
      | ok first => exact .inr ⟨⟨first, capacity⟩, rfl, rfl, hfits, hcalls⟩

theorem Pool.grow_growth (S : Supply α σ) (pool : Pool T α) (capacity : Capacity)
    (world : World (Recorded α σ)) :
    pool.Growth capacity world (pool.grow S.recorded capacity world) := by
  obtain ⟨hroom, hgrown⟩ := pool.index.reserve_recorded S world.supply
  unfold Pool.grow
  rcases hreserve : pool.index.reserve S.recorded world.supply with ⟨_ | index, record⟩
  · rw [hreserve] at hroom
    exact .failed _ pool.index.reserved rfl rfl rfl hroom
  · rw [hreserve] at hroom hgrown
    obtain ⟨reserved, rfl⟩ := hgrown index rfl
    dsimp only
    have hallocate := Slab.allocate_recorded (T := T) S pool.allocator capacity record
    rcases hanswer : Slab.allocate S.recorded pool.allocator T capacity record with
      ⟨(failure | fault) | slab, after⟩
    · rw [hanswer] at hallocate
      obtain ⟨_, -, hidle⟩ | ⟨_, hok, -⟩ := hallocate
      · exact .failed _ reserved rfl rfl rfl (hroom.trans hidle)
      · cases hok
    · rw [hanswer] at hallocate
      obtain ⟨_, -, hidle⟩ | ⟨_, hok, -⟩ := hallocate
      · exact .failed _ reserved rfl rfl rfl (hroom.trans hidle)
      · cases hok
    · rw [hanswer] at hallocate
      obtain ⟨_, herror, -⟩ | ⟨_, hok, rfl, hfits, hcalls⟩ := hallocate
      · cases herror
      · cases hok
        -- a slab has slots, so there is a run to put on the free list
        have hrow := @FreeList.pushRow_of_pos pool.free slab.first T.size slab.capacity.val
          world.memory slab.capacity.property
        simp only [hrow]
        exact .added slab reserved _ record.calls rfl rfl hfits hrow rfl hroom hcalls

/-! ### New pools -/

/-- What making a pool can come to. -/
inductive Blueprint.Built (plan : Blueprint α) (world : World (Recorded α σ))
    (reply : Reply (Recorded α σ) (Pool T α)) : Prop
  | failed (stop : Stop)
      (result_eq : reply.result = .error stop)
      (memory_eq : reply.world.memory = world.memory)
      (idle : Idle world.supply.calls reply.world.supply.calls)
  | empty (result_eq : reply.result = .ok { allocator := plan.allocator })
      (world_eq : reply.world = world)
  | filled (capacity : Capacity) (turn : Turn T α (Recorded α σ) Unit)
      (growth : Pool.Growth { allocator := plan.allocator } capacity world turn)
      (result_eq : reply.result = .ok turn.pool)
      (world_eq : reply.world = turn.world)

theorem Blueprint.build_built (S : Supply α σ) (plan : Blueprint α)
    (world : World (Recorded α σ)) : plan.Built world (plan.build S.recorded T world) := by
  cases hinitial : plan.initial with
  | none =>
      refine .empty ?_ ?_
      · simp only [Blueprint.build, hinitial]
      · simp only [Blueprint.build, hinitial]
  | some capacity =>
      have hgrowth := Pool.grow_growth (T := T) S { allocator := plan.allocator } capacity world
      simp only [Blueprint.build, hinitial]
      cases hgrowth with
      | failed stop reserved hresult _ hmemory hidle =>
          exact .failed stop (by rw [hresult]; rfl) hmemory hidle
      | added slab reserved free calls hresult _ _ _ _ _ _ =>
          exact .filled capacity _ (Pool.grow_growth S _ capacity world) (by rw [hresult]; rfl) rfl

namespace Blueprint.Built

variable {plan : Blueprint α} {world : World (Recorded α σ)}
  {reply : Reply (Recorded α σ) (Pool T α)}

theorem of_error (h : plan.Built world reply) {stop : Stop} (hresult : reply.result = .error stop) :
    reply.world.memory = world.memory ∧ Idle world.supply.calls reply.world.supply.calls := by
  cases h with
  | failed other _ hmemory hidle => exact ⟨hmemory, hidle⟩
  | empty hempty _ =>
      rw [hempty] at hresult
      cases hresult
  | filled capacity turn _ hfilled _ =>
      rw [hfilled] at hresult
      cases hresult

theorem of_ok (h : plan.Built world reply) {pool : Pool T α} (hresult : reply.result = .ok pool) :
    (pool = { allocator := plan.allocator } ∧ reply.world = world) ∨
      ∃ capacity turn, Pool.Growth { allocator := plan.allocator } capacity world turn ∧
        pool = turn.pool ∧ reply.world = turn.world := by
  cases h with
  | failed stop hstop _ _ =>
      rw [hstop] at hresult
      cases hresult
  | empty hempty hworld =>
      rw [hempty] at hresult
      cases hresult
      exact .inl ⟨rfl, hworld⟩
  | filled capacity turn hgrowth hfilled hworld =>
      rw [hfilled] at hresult
      cases hresult
      exact .inr ⟨capacity, turn, hgrowth, rfl, hworld⟩

end Blueprint.Built

/-! ### Giving slabs back -/

/-- A slab is given back by one request to take its block. -/
theorem Slab.release_of_layout (S : Supply α σ) (allocator : α) {slab : Slab T} {layout : Layout}
    (hlayout : Slab.layout T slab.capacity = .ok layout) (record : Recorded α σ) :
    ∃ answer after, slab.release S.recorded allocator record = (answer, after) ∧
      after.calls = .release ⟨allocator, slab.first, layout⟩ answer :: record.calls := by
  simp only [Slab.release, hlayout]
  exact ⟨_, _, rfl, rfl⟩

theorem Slab.releaseAll_handBack (S : Supply α σ) (allocator : α) {slabs : List (Slab T)}
    (hfits : ∀ slab ∈ slabs, slab.Fits) (record : Recorded α σ) :
    let answer := Slab.releaseAll S.recorded allocator slabs record
    HandBack (slabs.map (Slab.loan allocator)) record.calls answer.2.calls answer.1 := by
  induction slabs generalizing record with
  | nil => exact .all rfl rfl
  | cons slab slabs ih =>
      have hlayout : Slab.layout T slab.capacity = .ok ⟨slab.bytes, T.align⟩ :=
        Slab.layout_eq_ok_iff.mpr ⟨hfits slab (by simp), rfl⟩
      obtain ⟨answer, after, hrelease, hcalls⟩ :=
        Slab.release_of_layout S allocator hlayout record
      have hrest : ∀ other ∈ slabs, other.Fits := fun other hother => hfits other (by simp [hother])
      unfold Slab.releaseAll
      rw [hrelease]
      rcases answer with fault | _
      · exact .halted [] _ (slab.loan allocator) fault rfl rfl hcalls
      · cases ih hrest after with
        | all hresult hafter =>
            refine .all hresult ?_
            rw [List.map_cons, handedBack_cons, hafter, hcalls]
            rfl
        | halted earlier later loan fault hresult hgiven hafter =>
            refine .halted (slab.loan allocator :: earlier) later loan fault hresult ?_ ?_
            · rw [List.map_cons, hgiven, List.cons_append]
            · rw [handedBack_cons, hafter, hcalls]
              rfl

/-! ### The record only grows -/

theorem Pool.Growth.suffix {pool : Pool T α} {capacity : Capacity} {world : World (Recorded α σ)}
    {turn : Turn T α (Recorded α σ) Unit} (h : pool.Growth capacity world turn) :
    world.supply.calls <:+ turn.world.supply.calls := by
  cases h with
  | failed _ _ _ _ _ hidle => exact hidle.suffix
  | added _ _ _ _ _ _ _ _ _ hidle hcalls =>
      rw [hcalls]
      exact hidle.suffix.trans (List.suffix_cons _ _)

theorem Blueprint.suffix_build (S : Supply α σ) (plan : Blueprint α)
    (world : World (Recorded α σ)) :
    world.supply.calls <:+ (plan.build S.recorded T world).world.supply.calls := by
  cases plan.build_built (T := T) S world with
  | failed _ _ _ hidle => exact hidle.suffix
  | empty _ hworld => rw [hworld]
  | filled _ _ hgrowth _ hworld =>
      rw [hworld]
      exact hgrowth.suffix

theorem Slab.suffix_allocate (S : Supply α σ) (allocator : α) (T : ItemType) (capacity : Capacity)
    (record : Recorded α σ) :
    record.calls <:+ (Slab.allocate S.recorded allocator T capacity record).2.calls := by
  cases hlayout : Slab.layout T capacity with
  | error failure =>
      simp only [Slab.allocate, hlayout]
      exact List.suffix_rfl
  | ok layout =>
      obtain ⟨answer, after, hanswer, hcalls⟩ := Slab.allocate_of_layout S allocator hlayout record
      rw [hanswer, hcalls]
      exact List.suffix_cons _ _

theorem Slab.suffix_release (S : Supply α σ) (allocator : α) (slab : Slab T)
    (record : Recorded α σ) :
    record.calls <:+ (slab.release S.recorded allocator record).2.calls := by
  cases hlayout : Slab.layout T slab.capacity with
  | error failure =>
      simp only [Slab.release, hlayout]
      exact List.suffix_rfl
  | ok layout =>
      obtain ⟨answer, after, hanswer, hcalls⟩ := Slab.release_of_layout S allocator hlayout record
      rw [hanswer, hcalls]
      exact List.suffix_cons _ _

/-- Giving the first slab back comes first. -/
theorem Slab.releaseAll_cons_suffix (S : Supply α σ) (allocator : α) (slab : Slab T)
    {slabs : List (Slab T)}
    (hrest : ∀ record, record.calls <:+ (Slab.releaseAll S.recorded allocator slabs record).2.calls)
    (record : Recorded α σ) :
    (slab.release S.recorded allocator record).2.calls <:+
      (Slab.releaseAll S.recorded allocator (slab :: slabs) record).2.calls := by
  rcases hfirst : slab.release S.recorded allocator record with ⟨fault | ⟨⟩, after⟩
  · simp only [Slab.releaseAll, hfirst]
    exact List.suffix_rfl
  · simp only [Slab.releaseAll, hfirst]
    exact hrest after

theorem Slab.suffix_releaseAll (S : Supply α σ) (allocator : α) (slabs : List (Slab T))
    (record : Recorded α σ) :
    record.calls <:+ (Slab.releaseAll S.recorded allocator slabs record).2.calls := by
  induction slabs generalizing record with
  | nil => exact List.suffix_rfl
  | cons slab slabs ih =>
      exact (slab.suffix_release S allocator record).trans
        (Slab.releaseAll_cons_suffix S allocator slab ih record)

namespace Pool

/-- Once there is room, growth asks for a block and for nothing else. -/
theorem supply_grow (S : Supply α σ) {pool : Pool T α} {capacity : Capacity} {world : World σ}
    {index : SlabIndex T} {supply : σ}
    (hreserve : pool.index.reserve S world.supply = (some index, supply)) :
    (pool.grow S capacity world).world.supply =
      (Slab.allocate S pool.allocator T capacity supply).2 := by
  simp only [Pool.grow, hreserve]
  rcases Slab.allocate S pool.allocator T capacity supply with ⟨(failure | fault) | slab, after⟩
  · rfl
  · rfl
  · dsimp only
    split
    · rfl
    · rfl

theorem reserve_suffix_grow (S : Supply α σ) (pool : Pool T α) (capacity : Capacity)
    (world : World (Recorded α σ)) :
    (pool.index.reserve S.recorded world.supply).2.calls <:+
      (pool.grow S.recorded capacity world).world.supply.calls := by
  rcases hreserve : pool.index.reserve S.recorded world.supply with ⟨_ | index, record⟩
  · simp only [Pool.grow, hreserve]
    exact List.suffix_rfl
  · rw [supply_grow S.recorded hreserve]
    exact Slab.suffix_allocate S pool.allocator T capacity record

theorem acquired_grow (S : Supply α σ) (pool : Pool T α) (capacity : Capacity)
    (world : World (Recorded α σ)) :
    (pool.grow S.recorded capacity world).pool.acquired = pool.acquired := by
  cases pool.grow_growth S capacity world with
  | failed _ _ _ hpool _ _ => rw [hpool]
  | added _ _ _ _ _ _ _ _ hpool _ _ => rw [hpool]

theorem supply_destroy (S : Supply α σ) (pool : Pool T α) (world : World σ) :
    (pool.destroy S world).world.supply =
      (Slab.releaseAll S pool.allocator pool.index.slabs world.supply).2 := by
  simp only [Pool.destroy]
  split
  · next heq => rw [heq]
  · next heq => rw [heq]

theorem memory_destroy (S : Supply α σ) (pool : Pool T α) (world : World σ) :
    (pool.destroy S world).world.memory = world.memory := by
  simp only [Pool.destroy]
  split
  · rfl
  · rfl

/-- Nothing of a pool that was destroyed is left but its allocator. -/
theorem destroy_of_ok (S : Supply α σ) {pool : Pool T α} {world : World σ}
    (h : (pool.destroy S world).result = .ok ()) :
    (pool.destroy S world).pool = { allocator := pool.allocator } := by
  simp only [Pool.destroy] at h ⊢
  split at h
  · cases h
  · rfl

theorem destroy_of_error (S : Supply α σ) {pool : Pool T α} {world : World σ} {stop : Stop}
    (h : (pool.destroy S world).result = .error stop) :
    (pool.destroy S world).pool = pool.withoutSlabs := by
  simp only [Pool.destroy] at h ⊢
  split at h
  · rfl
  · cases h

/-- A pool that is dropped gives its slabs back as one that is destroyed does. -/
theorem drop_eq (S : Supply α σ) (pool : Pool T α) (world : World σ) :
    pool.drop S world =
      { result := (pool.destroy S world).result, world := (pool.destroy S world).world } := by
  simp only [Pool.drop, Pool.destroy]
  split
  · rfl
  · rfl

theorem emptied_destroy (S : Supply α σ) (pool : Pool T α) (world : World σ) :
    (pool.destroy S world).pool.index.slabs = [] ∧
      (pool.destroy S world).pool.free.head = none := by
  simp only [Pool.destroy]
  split
  · exact ⟨rfl, rfl⟩
  · exact ⟨rfl, rfl⟩

/-- The blocks of the pool are handed back, or as many of them as come before a fault. -/
theorem handBack_destroy (S : Supply α σ) {pool : Pool T α}
    (hfits : ∀ slab ∈ pool.index.slabs, slab.Fits) (world : World (Recorded α σ)) :
    ∃ result, (pool.destroy S.recorded world).result = result.mapError .fault ∧
      HandBack (pool.index.loans pool.allocator) world.supply.calls
        (pool.destroy S.recorded world).world.supply.calls result := by
  have hback := Slab.releaseAll_handBack S pool.allocator hfits world.supply
  rcases hanswer : Slab.releaseAll S.recorded pool.allocator pool.index.slabs world.supply with
    ⟨fault | ⟨⟩, record⟩
  · rw [hanswer] at hback
    simp only [destroy, hanswer]
    exact ⟨.error fault, rfl, hback⟩
  · rw [hanswer] at hback
    simp only [destroy, hanswer]
    exact ⟨.ok (), rfl, hback⟩

theorem suffix_destroy (S : Supply α σ) (pool : Pool T α)
    (world : World (Recorded α σ)) :
    world.supply.calls <:+ (pool.destroy S.recorded world).world.supply.calls := by
  rw [Pool.supply_destroy]
  exact Slab.suffix_releaseAll S pool.allocator pool.index.slabs world.supply

end Pool

end SlabPool
