import SlabPool.Proofs.Turnover

/-!
Two pools that make the same calls.

Two runs cannot be expected to get the same blocks, but they can be expected to be granted or
refused the same things. A `Verdict` is what an answer comes to once the address of the block is
left out, and a tape is a list of verdicts, the first one first. `Heard tape rest before after` says
that the calls between two records were answered as the tape begins, and that `rest` of the tape is
left.

What a pool asks for depends on its allocator, the sizes of its slabs and the room in the list of
them, and not on any address. So two pools with the same of these that hear the same tape make the
same demands in the same order (`Echo`), report the same and end with the same sizes and the same
room: for growth this is `Pool.SameBuild.grow`, for giving all slabs back `Pool.SameBuild.destroy`.
-/

namespace SlabPool

variable {T : ItemType} {α σ τ : Type}

/-! ### Verdicts and demands -/

/-- An answer without the address of a block. -/
inductive Verdict where
  | granted
  /-- Nothing came of the call. The heap gives no reason. -/
  | withheld (reason : Option Stop)
  deriving DecidableEq

/-- A call without the answer and without the address of a block. -/
inductive Demand (α : Type) where
  | room (bytes : Nat)
  | block (allocator : α) (layout : Layout)
  | takeBack (allocator : α) (layout : Layout)
  deriving DecidableEq

namespace Call

def verdict : Call α → Verdict
  | reserve _ true => .granted
  | reserve _ false => .withheld none
  | allocate _ _ (.ok _) => .granted
  | allocate _ _ (.error stop) => .withheld (some stop)
  | release _ (.ok ()) => .granted
  | release _ (.error fault) => .withheld (some (.fault fault))

def demand : Call α → Demand α
  | reserve bytes _ => .room bytes
  | allocate allocator layout _ => .block allocator layout
  | release loan _ => .takeBack loan.allocator loan.layout

end Call

/-- The verdicts on calls, the first one first. -/
def verdicts (calls : List (Call α)) : List Verdict :=
  (calls.map Call.verdict).reverse

/-- What was asked for, the first demand first. -/
def demands (calls : List (Call α)) : List (Demand α) :=
  (calls.map Call.demand).reverse

theorem verdicts_append (new calls : List (Call α)) :
    verdicts (new ++ calls) = verdicts calls ++ verdicts new := by
  simp [verdicts]

theorem demands_append (new calls : List (Call α)) :
    demands (new ++ calls) = demands calls ++ demands new := by
  simp [demands]

/-! ### Hearing a tape -/

/-- Between the two records, calls were answered as the tape begins, and the rest of it is left. -/
def Heard (tape rest : List Verdict) (before after : List (Call α)) : Prop :=
  ∃ new, after = new ++ before ∧ tape = verdicts new ++ rest

/-- Between the two records on the left, the same was asked for as between those on the right. -/
def Echo (before after before' after' : List (Call α)) : Prop :=
  ∃ new new', after = new ++ before ∧ after' = new' ++ before' ∧ demands new' = demands new

theorem Heard.of_prefix {tape : List Verdict} {calls : List (Call α)}
    (h : verdicts calls <+: tape) : ∃ rest, Heard tape rest [] calls := by
  obtain ⟨rest, hrest⟩ := h
  exact ⟨rest, calls, (List.append_nil calls).symm, hrest.symm⟩

namespace Heard

variable {tape rest : List Verdict} {before middle after : List (Call α)}

/-- What is heard in between is the first part of what is heard. -/
theorem split (h : Heard tape rest before after) (hbefore : before <:+ middle)
    (hafter : middle <:+ after) :
    ∃ between, Heard tape between before middle ∧ Heard between rest middle after := by
  obtain ⟨new, rfl, rfl⟩ := h
  obtain ⟨first, rfl⟩ := hbefore
  obtain ⟨second, hsecond⟩ := hafter
  rw [← List.append_assoc, List.append_cancel_right_eq] at hsecond
  subst hsecond
  refine ⟨verdicts second ++ rest, ⟨first, rfl, ?_⟩, ⟨second, List.append_assoc .., rfl⟩⟩
  rw [verdicts_append, List.append_assoc]

/-- Of the same tape, the same is left after as many calls. -/
theorem rest_eq {rest' : List Verdict} {before' after' : List (Call α)}
    (h : Heard tape rest before after) (h' : Heard tape rest' before' after')
    (hecho : Echo before after before' after') : rest' = rest := by
  obtain ⟨new, rfl, htape⟩ := h
  obtain ⟨new', rfl, htape'⟩ := h'
  obtain ⟨first, second, hfirst, hsecond, hdemands⟩ := hecho
  rw [List.append_cancel_right_eq] at hfirst hsecond
  subst hfirst hsecond
  have hlength : (verdicts new').length = (verdicts new).length := by
    have := congrArg List.length hdemands
    simpa [demands, verdicts] using this
  rw [htape] at htape'
  exact (List.append_inj htape' hlength.symm).2.symm

/-- The same tape has the same verdict on the one call that was made. -/
theorem verdict_eq {rest' : List Verdict} {before' : List (Call α)} {call call' : Call α}
    (h : Heard tape rest before (call :: before))
    (h' : Heard tape rest' before' (call' :: before')) : call'.verdict = call.verdict := by
  obtain ⟨new, hnew, htape⟩ := h
  obtain ⟨new', hnew', htape'⟩ := h'
  have hone : [call] = new := List.append_cancel_right hnew
  have hone' : [call'] = new' := List.append_cancel_right hnew'
  subst hone hone'
  rw [htape] at htape'
  exact (List.cons.inj htape').1.symm

end Heard

namespace Echo

theorem refl (calls calls' : List (Call α)) : Echo calls calls calls' calls' :=
  ⟨[], [], rfl, rfl, rfl⟩

theorem trans {before middle after before' middle' after' : List (Call α)}
    (h : Echo before middle before' middle') (h' : Echo middle after middle' after') :
    Echo before after before' after' := by
  obtain ⟨new, new', rfl, rfl, hnew⟩ := h
  obtain ⟨newer, newer', rfl, rfl, hnewer⟩ := h'
  refine ⟨newer ++ new, newer' ++ new', (List.append_assoc ..).symm,
    (List.append_assoc ..).symm, ?_⟩
  rw [demands_append, demands_append, hnew, hnewer]

theorem one {calls calls' : List (Call α)} {call call' : Call α} (h : call'.demand = call.demand) :
    Echo calls (call :: calls) calls' (call' :: calls') :=
  ⟨[call], [call'], rfl, rfl, by simp [demands, h]⟩

/-- From the same demands on, the demands are the same. -/
theorem demands_eq {before after before' after' : List (Call α)}
    (h : Echo before after before' after') (hbefore : demands before' = demands before) :
    demands after' = demands after := by
  obtain ⟨new, new', rfl, rfl, hnew⟩ := h
  rw [demands_append, demands_append, hbefore, hnew]

end Echo

/-! ### Calls that are granted -/

/-- Nothing was refused, and no allocator raised a fault. -/
def Granted (calls : List (Call α)) : Prop :=
  ∀ call ∈ calls, call.verdict = .granted

instance (calls : List (Call α)) : Decidable (Granted calls) :=
  inferInstanceAs (Decidable (∀ call ∈ calls, _))

theorem Granted.of_suffix {before after : List (Call α)} (h : Granted after)
    (hsuffix : before <:+ after) : Granted before :=
  fun call hcall => h call (hsuffix.subset hcall)

theorem Granted.verdicts_eq {calls : List (Call α)} (h : Granted calls) :
    verdicts calls = List.replicate calls.length .granted := by
  have hall : calls.map Call.verdict = List.replicate calls.length .granted :=
    List.map_eq_replicate_iff.mpr h
  rw [verdicts, hall, List.reverse_replicate]

/-- Where everything is granted, the same tape is heard everywhere. -/
theorem Granted.exists_heard {before after before' after' : List (Call α)} (h : Granted after)
    (h' : Granted after') (hsuffix : before <:+ after) (hsuffix' : before' <:+ after') :
    ∃ tape rest rest', Heard tape rest before after ∧ Heard tape rest' before' after' := by
  obtain ⟨new, rfl⟩ := hsuffix
  obtain ⟨new', rfl⟩ := hsuffix'
  have hnew : Granted new := fun call hcall => h call (List.mem_append_left _ hcall)
  have hnew' : Granted new' := fun call hcall => h' call (List.mem_append_left _ hcall)
  refine ⟨List.replicate (new.length + new'.length) .granted,
    List.replicate new'.length .granted, List.replicate new.length .granted,
    ⟨new, rfl, ?_⟩, ⟨new', rfl, ?_⟩⟩
  · rw [hnew.verdicts_eq, List.replicate_append_replicate]
  · rw [hnew'.verdicts_eq, List.replicate_append_replicate, Nat.add_comm]

/-! ### Room in the list of slabs -/

variable {S : Supply α σ} {S' : Supply α τ} {tape rest rest' : List Verdict}

theorem SlabIndex.suffix_reserve (S : Supply α σ) (index : SlabIndex T) (record : Recorded α σ) :
    record.calls <:+ (index.reserve S.recorded record).2.calls :=
  (index.reserve_recorded S record).1.suffix

/-- Two lists of as many slabs with as much room are given the same room. -/
theorem SlabIndex.reserve_concert {index index' : SlabIndex T} {record : Recorded α σ}
    {record' : Recorded α τ} (hlength : index'.slabs.length = index.slabs.length)
    (hreserved : index'.reserved = index.reserved)
    (h : Heard tape rest record.calls (index.reserve S.recorded record).2.calls)
    (h' : Heard tape rest' record'.calls (index'.reserve S'.recorded record').2.calls) :
    ((∃ room, (index.reserve S.recorded record).1 = some { index with reserved := room } ∧
        (index'.reserve S'.recorded record').1 = some { index' with reserved := room }) ∨
      (index.reserve S.recorded record).1 = none ∧
        (index'.reserve S'.recorded record').1 = none) ∧
    Echo record.calls (index.reserve S.recorded record).2.calls record'.calls
      (index'.reserve S'.recorded record').2.calls := by
  have hnext : index'.nextReserved = index.nextReserved := by
    rw [SlabIndex.nextReserved, SlabIndex.nextReserved, hreserved]
  by_cases hroom : index.slabs.length < index.reserved
  · have hroom' : index'.slabs.length < index'.reserved := by rwa [hlength, hreserved]
    simp only [SlabIndex.reserve, if_pos hroom, if_pos hroom']
    exact ⟨.inl ⟨index.reserved, rfl, by rw [← hreserved]⟩, .refl _ _⟩
  · have hroom' : ¬ index'.slabs.length < index'.reserved := by rwa [hlength, hreserved]
    simp only [SlabIndex.reserve, if_neg hroom, if_neg hroom', hnext, Supply.recorded] at h h' ⊢
    generalize (S.reserve (SlabIndex.entrySize * index.nextReserved) record.state) = answer
      at h ⊢
    generalize (S'.reserve (SlabIndex.entrySize * index.nextReserved) record'.state) = answer'
      at h' ⊢
    obtain ⟨granted, state⟩ := answer
    obtain ⟨granted', state'⟩ := answer'
    cases granted with
    | true =>
        cases granted' with
        | true => exact ⟨.inl ⟨_, rfl, rfl⟩, .one rfl⟩
        | false => cases h.verdict_eq h'
    | false =>
        cases granted' with
        | true => cases h.verdict_eq h'
        | false => exact ⟨.inr ⟨rfl, rfl⟩, .one rfl⟩

/-! ### Slabs -/

/-- Both get a slab, or neither does and for the same reason. -/
theorem Slab.allocate_concert (allocator : α) (capacity : Capacity) {record : Recorded α σ}
    {record' : Recorded α τ}
    (h : Heard tape rest record.calls
      (Slab.allocate S.recorded allocator T capacity record).2.calls)
    (h' : Heard tape rest' record'.calls
      (Slab.allocate S'.recorded allocator T capacity record').2.calls) :
    ((∃ first first',
        (Slab.allocate S.recorded allocator T capacity record).1 = .ok ⟨first, capacity⟩ ∧
        (Slab.allocate S'.recorded allocator T capacity record').1 = .ok ⟨first', capacity⟩) ∨
      ∃ stop, (Slab.allocate S.recorded allocator T capacity record).1 = .error stop ∧
        (Slab.allocate S'.recorded allocator T capacity record').1 = .error stop) ∧
    Echo record.calls (Slab.allocate S.recorded allocator T capacity record).2.calls record'.calls
      (Slab.allocate S'.recorded allocator T capacity record').2.calls := by
  cases hlayout : Slab.layout T capacity with
  | error failure =>
      simp only [Slab.allocate, hlayout]
      exact ⟨.inr ⟨_, rfl, rfl⟩, .refl _ _⟩
  | ok layout =>
      obtain ⟨answer, after, hleft, hcalls⟩ := Slab.allocate_of_layout S allocator hlayout record
      obtain ⟨answer', after', hright, hcalls'⟩ :=
        Slab.allocate_of_layout S' allocator hlayout record'
      rw [hleft, hcalls] at h
      rw [hright, hcalls'] at h'
      rw [hleft, hright]
      dsimp only
      rw [hcalls, hcalls']
      refine ⟨?_, .one rfl⟩
      have hverdict := h.verdict_eq h'
      cases answer with
      | error stop =>
          cases answer' with
          | error stop' =>
              simp only [Call.verdict, Verdict.withheld.injEq, Option.some.injEq] at hverdict
              exact .inr ⟨stop, rfl, by rw [hverdict]; rfl⟩
          | ok first' => cases hverdict
      | ok first =>
          cases answer' with
          | error stop' => cases hverdict
          | ok first' => exact .inl ⟨first, first', rfl, rfl⟩

/-- A slab is given back with the same result as another one of its size. -/
theorem Slab.release_concert (allocator : α) {slab slab' : Slab T} {record : Recorded α σ}
    {record' : Recorded α τ} (hcapacity : slab'.capacity = slab.capacity)
    (h : Heard tape rest record.calls (slab.release S.recorded allocator record).2.calls)
    (h' : Heard tape rest' record'.calls (slab'.release S'.recorded allocator record').2.calls) :
    (slab'.release S'.recorded allocator record').1 = (slab.release S.recorded allocator record).1 ∧
      Echo record.calls (slab.release S.recorded allocator record).2.calls record'.calls
        (slab'.release S'.recorded allocator record').2.calls := by
  cases hlayout : Slab.layout T slab.capacity with
  | error failure =>
      have hlayout' : Slab.layout T slab'.capacity = .error failure := hcapacity ▸ hlayout
      simp only [Slab.release, hlayout, hlayout']
      exact ⟨trivial, .refl _ _⟩
  | ok layout =>
      have hlayout' : Slab.layout T slab'.capacity = .ok layout := hcapacity ▸ hlayout
      obtain ⟨answer, after, hleft, hcalls⟩ := Slab.release_of_layout S allocator hlayout record
      obtain ⟨answer', after', hright, hcalls'⟩ :=
        Slab.release_of_layout S' allocator hlayout' record'
      rw [hleft, hcalls] at h
      rw [hright, hcalls'] at h'
      rw [hleft, hright]
      dsimp only
      rw [hcalls, hcalls']
      refine ⟨?_, .one rfl⟩
      have hverdict := h.verdict_eq h'
      rcases answer with fault | ⟨⟩
      · rcases answer' with fault' | ⟨⟩
        · simp only [Call.verdict, Verdict.withheld.injEq, Option.some.injEq,
            Stop.fault.injEq] at hverdict
          rw [hverdict]
        · cases hverdict
      · rcases answer' with fault' | ⟨⟩
        · cases hverdict
        · rfl

theorem Slab.releaseAll_concert (allocator : α) {slabs slabs' : List (Slab T)}
    {record : Recorded α σ} {record' : Recorded α τ}
    (hcapacities : List.Forall₂ (fun slab slab' => slab'.capacity = slab.capacity) slabs slabs')
    (h : Heard tape rest record.calls (Slab.releaseAll S.recorded allocator slabs record).2.calls)
    (h' : Heard tape rest' record'.calls
      (Slab.releaseAll S'.recorded allocator slabs' record').2.calls) :
    (Slab.releaseAll S'.recorded allocator slabs' record').1 =
        (Slab.releaseAll S.recorded allocator slabs record).1 ∧
      Echo record.calls (Slab.releaseAll S.recorded allocator slabs record).2.calls record'.calls
        (Slab.releaseAll S'.recorded allocator slabs' record').2.calls := by
  induction hcapacities generalizing record record' tape with
  | nil => exact ⟨rfl, .refl _ _⟩
  | @cons slab slab' slabs slabs' hcapacity _ ih =>
      obtain ⟨between, hfirst, hlater⟩ := h.split (slab.suffix_release S allocator record)
        (Slab.releaseAll_cons_suffix S allocator slab (suffix_releaseAll S allocator slabs) record)
      obtain ⟨between', hfirst', hlater'⟩ := h'.split (slab'.suffix_release S' allocator record')
        (Slab.releaseAll_cons_suffix S' allocator slab' (suffix_releaseAll S' allocator slabs')
          record')
      obtain ⟨hresult, hecho⟩ := Slab.release_concert allocator hcapacity hfirst hfirst'
      obtain rfl := hfirst.rest_eq hfirst' hecho
      rcases hleft : slab.release S.recorded allocator record with ⟨result, after⟩
      rcases hright : slab'.release S'.recorded allocator record' with ⟨result', after'⟩
      rw [hleft, hright] at hresult hecho
      obtain rfl : result' = result := hresult
      cases result' with
      | error fault =>
          simp only [Slab.releaseAll, hleft, hright]
          exact ⟨trivial, hecho⟩
      | ok done =>
          simp only [Slab.releaseAll, hleft, hright] at hlater hlater' ⊢
          obtain ⟨hrest, hechoes⟩ := ih hlater hlater'
          exact ⟨hrest, hecho.trans hechoes⟩

/-! ### Pools -/

/-- Two operations reported the same and asked for the same. -/
structure Reply.InConcert {β : Type} (reply : Reply (Recorded α σ) β)
    (reply' : Reply (Recorded α τ) β) (before before' : List (Call α)) : Prop where
  events_eq : reply'.events = reply.events
  destroyed_eq : reply'.destroyed = reply.destroyed
  echo : Echo before reply.world.supply.calls before' reply'.world.supply.calls

namespace Pool

/-- What a pool asks its surroundings for depends on these alone. -/
structure SameBuild (pool pool' : Pool T α) : Prop where
  allocator_eq : pool'.allocator = pool.allocator
  capacities_eq : pool'.capacities = pool.capacities
  reserved_eq : pool'.index.reserved = pool.index.reserved

namespace SameBuild

variable {pool pool' : Pool T α} {world : World (Recorded α σ)} {world' : World (Recorded α τ)}

theorem numSlabs_eq (h : pool.SameBuild pool') : pool'.numSlabs = pool.numSlabs := by
  have hlength := congrArg List.length h.capacities_eq
  simp only [Pool.capacities, SlabIndex.capacities, List.length_map] at hlength
  exact hlength

theorem forall₂ (h : pool.SameBuild pool') :
    List.Forall₂ (fun slab slab' => slab'.capacity = slab.capacity) pool.index.slabs
      pool'.index.slabs := by
  have heq := h.capacities_eq.symm
  simp only [Pool.capacities, SlabIndex.capacities] at heq
  rw [← List.forall₂_eq_eq_eq, List.forall₂_map_left_iff, List.forall₂_map_right_iff] at heq
  exact heq.imp fun _ _ h => Subtype.ext h.symm

/-- Both grow by slabs of the same size, or neither does and for the same reason. -/
theorem grow (h : pool.SameBuild pool') (capacity : Capacity)
    (hleft : Heard tape rest world.supply.calls
      (pool.grow S.recorded capacity world).world.supply.calls)
    (hright : Heard tape rest' world'.supply.calls
      (pool'.grow S'.recorded capacity world').world.supply.calls) :
    let turn := pool.grow S.recorded capacity world
    let turn' := pool'.grow S'.recorded capacity world'
    turn'.result = turn.result ∧ turn.pool.SameBuild turn'.pool ∧
      turn.InConcert turn'.toReply world.supply.calls world'.supply.calls := by
  intro turn turn'
  obtain ⟨between, hroom, hblock⟩ := hleft.split (pool.index.suffix_reserve S world.supply)
    (pool.reserve_suffix_grow S capacity world)
  obtain ⟨between', hroom', hblock'⟩ := hright.split (pool'.index.suffix_reserve S' world'.supply)
    (pool'.reserve_suffix_grow S' capacity world')
  obtain ⟨hgrants, hecho⟩ := SlabIndex.reserve_concert h.numSlabs_eq h.reserved_eq hroom hroom'
  obtain rfl := hroom.rest_eq hroom' hecho
  rcases hreserve : pool.index.reserve S.recorded world.supply with ⟨grant, record⟩
  rcases hreserve' : pool'.index.reserve S'.recorded world'.supply with ⟨grant', record'⟩
  rw [hreserve] at hgrants hecho hblock
  rw [hreserve'] at hgrants hecho hblock'
  obtain ⟨room, rfl, rfl⟩ | ⟨rfl, rfl⟩ := hgrants
  · rw [Pool.supply_grow S.recorded hreserve] at hblock
    rw [Pool.supply_grow S'.recorded hreserve', h.allocator_eq] at hblock'
    obtain ⟨hslabs, hechoes⟩ := Slab.allocate_concert pool.allocator capacity hblock hblock'
    rcases hslab : Slab.allocate S.recorded pool.allocator T capacity record with ⟨answer, after⟩
    rcases hslab' : Slab.allocate S'.recorded pool.allocator T capacity record' with
      ⟨answer', after'⟩
    rw [hslab] at hslabs hechoes
    rw [hslab'] at hslabs hechoes
    have hechoes := hecho.trans hechoes
    obtain ⟨first, first', rfl, rfl⟩ | ⟨stop, rfl, rfl⟩ := hslabs
    · have hrow := @FreeList.pushRow_of_pos pool.free first T.size capacity.val world.memory
        capacity.property
      have hrow' := @FreeList.pushRow_of_pos pool'.free first' T.size capacity.val world'.memory
        capacity.property
      simp only [turn, turn', Pool.grow, hreserve, hreserve', h.allocator_eq, hslab, hslab', hrow,
        hrow']
      refine ⟨trivial, ⟨rfl, ?_, rfl⟩, ?_, rfl, hechoes⟩
      · simpa [Pool.capacities, SlabIndex.capacities, SlabIndex.append] using h.capacities_eq
      · simpa [SlabIndex.append, Pool.numSlabs] using h.numSlabs_eq
    · rcases stop with failure | fault
      · simp only [turn, turn', Pool.grow, hreserve, hreserve', h.allocator_eq, hslab, hslab']
        exact ⟨trivial, ⟨rfl, h.capacities_eq, rfl⟩, rfl, rfl, hechoes⟩
      · simp only [turn, turn', Pool.grow, hreserve, hreserve', h.allocator_eq, hslab, hslab']
        exact ⟨trivial, ⟨rfl, h.capacities_eq, rfl⟩, rfl, rfl, hechoes⟩
  · simp only [turn, turn', Pool.grow, hreserve, hreserve', h.numSlabs_eq]
    exact ⟨trivial, h, rfl, rfl, hecho⟩

/-- Both give all slabs back, or both are stopped by the same fault. -/
theorem destroy (h : pool.SameBuild pool')
    (hleft : Heard tape rest world.supply.calls (pool.destroy S.recorded world).world.supply.calls)
    (hright : Heard tape rest' world'.supply.calls
      (pool'.destroy S'.recorded world').world.supply.calls) :
    let turn := pool.destroy S.recorded world
    let turn' := pool'.destroy S'.recorded world'
    turn'.result = turn.result ∧ turn.pool.SameBuild turn'.pool ∧
      turn.InConcert turn'.toReply world.supply.calls world'.supply.calls := by
  intro turn turn'
  rw [Pool.supply_destroy] at hleft hright
  rw [h.allocator_eq] at hright
  obtain ⟨hresult, hecho⟩ := Slab.releaseAll_concert pool.allocator h.forall₂ hleft hright
  rcases hback : Slab.releaseAll S.recorded pool.allocator pool.index.slabs world.supply with
    ⟨result, record⟩
  rcases hback' : Slab.releaseAll S'.recorded pool.allocator pool'.index.slabs world'.supply with
    ⟨result', record'⟩
  rw [hback, hback'] at hresult hecho
  obtain rfl : result' = result := hresult
  rcases result' with fault | ⟨⟩
  · simp only [turn, turn', Pool.destroy, h.allocator_eq, hback, hback']
    exact ⟨trivial, ⟨h.allocator_eq, rfl, h.reserved_eq⟩, rfl, rfl, hecho⟩
  · simp only [turn, turn', Pool.destroy, h.allocator_eq, hback, hback', h.numSlabs_eq]
    exact ⟨trivial, ⟨rfl, rfl, rfl⟩, rfl, rfl, hecho⟩

end SameBuild

end Pool

end SlabPool
