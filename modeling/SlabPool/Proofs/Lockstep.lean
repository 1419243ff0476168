import SlabPool.Pool.Blueprint
import SlabPool.Proofs.FailedGrowth

/-!
Two pools that get the same answers.

Two pools may differ in the room in their lists of slabs, and their surroundings in everything. As
long as the blocks they ask for and give back are answered alike, and no room is refused to either,
they cannot be told apart: whatever is asked of both is answered alike, with the same events, and
the memory and the pools are alike again afterwards.

What the surroundings of a pool answered is read off the record of calls, as a tape of the answers
in order (`answers`). Two pools run `Together` along a tape as long as the answers to both are its
beginning. Every operation has a lemma that takes two records with the same answers so far and ends
with two records with the same answers; whether room had to be made is the one thing in which the
records can differ.
-/

namespace SlabPool

variable {T : ItemType} {α σ τ : Type}

/-! ### Tapes of answers -/

/-- What an allocator answered when it was asked for a block or given one back. -/
inductive BlockAnswer where
  | lent (answer : Except Stop Nat)
  | returned (answer : Except Fault Unit)
  deriving DecidableEq

def Call.answer? : Call α → Option BlockAnswer
  | allocate _ _ answer => some (.lent answer)
  | release _ answer => some (.returned answer)
  | reserve .. => none

/-- What allocators answered so far, the first answer first. -/
def answers (calls : List (Call α)) : List BlockAnswer :=
  (calls.filterMap Call.answer?).reverse

/-- The call is not one for room that was refused. -/
def Call.roomy : Call α → Bool
  | reserve _ granted => granted
  | _ => true

/-- Room in a list of slabs was never refused. -/
def Roomy (calls : List (Call α)) : Prop :=
  ∀ call ∈ calls, call.roomy = true

instance (calls : List (Call α)) : Decidable (Roomy calls) :=
  inferInstanceAs (Decidable (∀ call ∈ calls, _))

theorem answers_cons (call : Call α) (calls : List (Call α)) :
    answers (call :: calls) = answers calls ++ call.answer?.toList := by
  cases hanswer : call.answer? with
  | none => simp [answers, hanswer]
  | some answer => simp [answers, hanswer]

theorem answers_of_suffix {calls later : List (Call α)} (h : calls <:+ later) :
    answers calls <+: answers later :=
  List.reverse_prefix.mpr (h.filterMap Call.answer?)

/-- The answers in two records are the beginning of one tape, and room was refused in neither. -/
structure Together (tape : List BlockAnswer) (calls calls' : List (Call α)) : Prop where
  left : answers calls <+: tape
  right : answers calls' <+: tape
  left_roomy : Roomy calls
  right_roomy : Roomy calls'

theorem Together.of_suffix {tape : List BlockAnswer} {calls calls' later later' : List (Call α)}
    (h : Together tape later later') (hleft : calls <:+ later) (hright : calls' <:+ later') :
    Together tape calls calls' where
  left := (answers_of_suffix hleft).trans h.left
  right := (answers_of_suffix hright).trans h.right
  left_roomy := fun call hcall => h.left_roomy call (hleft.subset hcall)
  right_roomy := fun call hcall => h.right_roomy call (hright.subset hcall)

/-- After the same answers, the next answer is the same. -/
theorem Together.next_eq {tape : List BlockAnswer} {calls calls' : List (Call α)}
    {call call' : Call α} {answer answer' : BlockAnswer}
    (h : Together tape (call :: calls) (call' :: calls')) (hsame : answers calls' = answers calls)
    (hcall : call.answer? = some answer) (hcall' : call'.answer? = some answer') :
    answer' = answer ∧ answers (call' :: calls') = answers (call :: calls) := by
  have hleft : answers (call :: calls) = answers calls ++ [answer] := by
    rw [answers_cons, hcall, Option.toList_some]
  have hright : answers (call' :: calls') = answers calls ++ [answer'] := by
    rw [answers_cons, hcall', hsame, Option.toList_some]
  have hlength : (answers (call' :: calls')).length = (answers (call :: calls)).length := by
    rw [hleft, hright, List.length_append, List.length_append]
    rfl
  have heq : answers (call' :: calls') = answers (call :: calls) :=
    (List.prefix_of_prefix_length_le h.right h.left (Nat.le_of_eq hlength)).eq_of_length hlength
  refine ⟨?_, heq⟩
  rw [hleft, hright, List.append_cancel_left_eq] at heq
  exact (List.cons.inj heq).1

/-! ### Room -/

/-- Room in the list of slabs is not a matter of the tape. -/
theorem SlabIndex.reserve_answers (S : Supply α σ) (index : SlabIndex T) (record : Recorded α σ) :
    let answer := index.reserve S.recorded record
    answers answer.2.calls = answers record.calls ∧
      (Roomy answer.2.calls → ∃ room, answer.1 = some { index with reserved := room }) := by
  simp only [SlabIndex.reserve]
  split
  · exact ⟨rfl, fun _ => ⟨index.reserved, rfl⟩⟩
  · simp only [Supply.recorded]
    cases (S.reserve (SlabIndex.entrySize * index.nextReserved) record.state).1 with
    | true => exact ⟨rfl, fun _ => ⟨index.nextReserved, rfl⟩⟩
    | false =>
        refine ⟨rfl, fun hroomy => ?_⟩
        cases hroomy _ List.mem_cons_self

/-! ### Slabs -/

variable {S : Supply α σ} {S' : Supply α τ} {tape : List BlockAnswer}

theorem Slab.allocate_together (allocator : α) (capacity : Capacity) {record : Recorded α σ}
    {record' : Recorded α τ} (hsame : answers record'.calls = answers record.calls)
    (h : Together tape (Slab.allocate S.recorded allocator T capacity record).2.calls
      (Slab.allocate S'.recorded allocator T capacity record').2.calls) :
    (Slab.allocate S'.recorded allocator T capacity record').1 =
        (Slab.allocate S.recorded allocator T capacity record).1 ∧
      answers (Slab.allocate S'.recorded allocator T capacity record').2.calls =
        answers (Slab.allocate S.recorded allocator T capacity record).2.calls := by
  cases hlayout : Slab.layout T capacity with
  | error failure =>
      simp only [Slab.allocate, hlayout]
      exact ⟨trivial, hsame⟩
  | ok layout =>
      obtain ⟨answer, after, hleft, hcalls⟩ := Slab.allocate_of_layout S allocator hlayout record
      obtain ⟨answer', after', hright, hcalls'⟩ :=
        Slab.allocate_of_layout S' allocator hlayout record'
      rw [hleft, hright] at h ⊢
      simp only [hcalls, hcalls'] at h ⊢
      obtain ⟨heq, hanswers⟩ := h.next_eq hsame rfl rfl
      exact ⟨by rw [BlockAnswer.lent.inj heq], hanswers⟩

theorem Slab.release_together (allocator : α) (slab : Slab T) {record : Recorded α σ}
    {record' : Recorded α τ} (hsame : answers record'.calls = answers record.calls)
    (h : Together tape (slab.release S.recorded allocator record).2.calls
      (slab.release S'.recorded allocator record').2.calls) :
    (slab.release S'.recorded allocator record').1 = (slab.release S.recorded allocator record).1 ∧
      answers (slab.release S'.recorded allocator record').2.calls =
        answers (slab.release S.recorded allocator record).2.calls := by
  cases hlayout : Slab.layout T slab.capacity with
  | error failure =>
      simp only [Slab.release, hlayout]
      exact ⟨trivial, hsame⟩
  | ok layout =>
      obtain ⟨answer, after, hleft, hcalls⟩ := Slab.release_of_layout S allocator hlayout record
      obtain ⟨answer', after', hright, hcalls'⟩ :=
        Slab.release_of_layout S' allocator hlayout record'
      rw [hleft, hright] at h ⊢
      simp only [hcalls, hcalls'] at h ⊢
      obtain ⟨heq, hanswers⟩ := h.next_eq hsame rfl rfl
      exact ⟨BlockAnswer.returned.inj heq, hanswers⟩

theorem Slab.releaseAll_together (allocator : α) (slabs : List (Slab T)) {record : Recorded α σ}
    {record' : Recorded α τ} (hsame : answers record'.calls = answers record.calls)
    (h : Together tape (Slab.releaseAll S.recorded allocator slabs record).2.calls
      (Slab.releaseAll S'.recorded allocator slabs record').2.calls) :
    (Slab.releaseAll S'.recorded allocator slabs record').1 =
        (Slab.releaseAll S.recorded allocator slabs record).1 ∧
      answers (Slab.releaseAll S'.recorded allocator slabs record').2.calls =
        answers (Slab.releaseAll S.recorded allocator slabs record).2.calls := by
  induction slabs generalizing record record' with
  | nil => exact ⟨rfl, hsame⟩
  | cons slab slabs ih =>
      have hfirst := h.of_suffix
        (Slab.releaseAll_cons_suffix S allocator slab (suffix_releaseAll S allocator slabs) record)
        (Slab.releaseAll_cons_suffix S' allocator slab (suffix_releaseAll S' allocator slabs)
          record')
      obtain ⟨hresult, hanswers⟩ := Slab.release_together allocator slab hsame hfirst
      rcases hleft : slab.release S.recorded allocator record with ⟨result, after⟩
      rcases hright : slab.release S'.recorded allocator record' with ⟨result', after'⟩
      rw [hleft, hright] at hresult hanswers
      obtain rfl : result' = result := hresult
      cases result' with
      | error fault =>
          simp only [Slab.releaseAll, hleft, hright]
          exact ⟨trivial, hanswers⟩
      | ok done =>
          simp only [Slab.releaseAll, hleft, hright] at h ⊢
          exact ih hanswers h

/-! ### Worlds and answers that are alike -/

/-- The memories are the same, and so are the answers so far. -/
structure World.Alike (world : World (Recorded α σ)) (world' : World (Recorded α τ)) : Prop where
  memory_eq : world'.memory = world.memory
  answers_eq : answers world'.supply.calls = answers world.supply.calls

/-- An operation was answered alike in two worlds. -/
structure Reply.Alike {β : Type} (reply : Reply (Recorded α σ) β)
    (reply' : Reply (Recorded α τ) β) : Prop where
  result_eq : reply'.result = reply.result
  events_eq : reply'.events = reply.events
  destroyed_eq : reply'.destroyed = reply.destroyed
  world : reply.world.Alike reply'.world

/-- An operation was answered alike by two pools, which differ at most in the room for slabs. -/
structure Turn.Alike {β : Type} (turn : Turn T α (Recorded α σ) β)
    (turn' : Turn T α (Recorded α τ) β) : Prop extends
    Reply.Alike turn.toReply turn'.toReply where
  pool_eq : ∃ room, turn'.pool = turn.pool.withRoom room

structure Served.Alike (served : Served T α (Recorded α σ)) (served' : Served T α (Recorded α τ)) :
    Prop extends Reply.Alike served.toReply served'.toReply where
  account_eq : ∃ room, served'.account = served.account.withRoom room

/-! ### Pools -/

namespace Pool

variable {pool : Pool T α} {room : Nat} {world : World (Recorded α σ)}
  {world' : World (Recorded α τ)}

theorem grow_alike {capacity : Capacity} (hworld : world.Alike world')
    (h : Together tape (pool.grow S.recorded capacity world).world.supply.calls
      ((pool.withRoom room).grow S'.recorded capacity world').world.supply.calls) :
    (pool.grow S.recorded capacity world).Alike
      ((pool.withRoom room).grow S'.recorded capacity world') := by
  have hroomy := h.of_suffix (reserve_suffix_grow S pool capacity world)
    (reserve_suffix_grow S' (pool.withRoom room) capacity world')
  obtain ⟨hanswers, hroom⟩ := pool.index.reserve_answers S world.supply
  obtain ⟨hanswers', hroom'⟩ := (pool.withRoom room).index.reserve_answers S' world'.supply
  obtain ⟨reserved, hindex⟩ := hroom hroomy.left_roomy
  obtain ⟨reserved', hindex'⟩ := hroom' hroomy.right_roomy
  rcases hreserve : pool.index.reserve S.recorded world.supply with ⟨_, record⟩
  rcases hreserve' : (pool.withRoom room).index.reserve S'.recorded world'.supply with ⟨_, record'⟩
  rw [hreserve] at hindex hanswers
  rw [hreserve'] at hindex' hanswers'
  subst hindex hindex'
  rw [supply_grow S.recorded hreserve, supply_grow S'.recorded hreserve'] at h
  obtain ⟨hresult, hblock⟩ := Slab.allocate_together pool.allocator capacity
    (hanswers'.trans (hworld.answers_eq.trans hanswers.symm)) h
  rcases hleft : Slab.allocate S.recorded pool.allocator T capacity record with ⟨result, after⟩
  rcases hright : Slab.allocate S'.recorded pool.allocator T capacity record' with ⟨result', after'⟩
  rw [hleft, hright] at hresult hblock
  obtain rfl : result' = result := hresult
  rcases result' with (failure | fault) | slab
  · simp only [Pool.grow, hreserve, hreserve', hleft, hright, allocator_withRoom]
    exact ⟨⟨rfl, rfl, rfl, hworld.memory_eq, hblock⟩, reserved', rfl⟩
  · simp only [Pool.grow, hreserve, hreserve', hleft, hright, allocator_withRoom]
    exact ⟨⟨rfl, rfl, rfl, hworld.memory_eq, hblock⟩, reserved', rfl⟩
  · simp only [Pool.grow, hreserve, hreserve', hleft, hright, allocator_withRoom, free_withRoom,
      hworld.memory_eq]
    cases pool.free.pushRow slab.first T.size slab.capacity.val world.memory with
    | error fault => exact ⟨⟨rfl, rfl, rfl, rfl, hblock⟩, reserved', rfl⟩
    | ok linked => exact ⟨⟨rfl, rfl, rfl, rfl, hblock⟩, reserved', rfl⟩

theorem take_withRoom (pool : Pool T α) (room : Nat) (memory : Memory) :
    (pool.withRoom room).take memory =
      ((pool.take memory).1, (pool.take memory).2.withRoom room) := by
  simp only [Pool.take, free_withRoom, acquired_withRoom]
  cases pool.free.pop? memory with
  | none => rfl
  | some popped =>
      dsimp only
      cases Word.checkedAdd pool.acquired 1 with
      | none => rfl
      | some acquired => rfl

theorem acquire_alike (hworld : world.Alike world')
    (h : Together tape (pool.acquire S.recorded world).world.supply.calls
      ((pool.withRoom room).acquire S'.recorded world').world.supply.calls) :
    (pool.acquire S.recorded world).Alike ((pool.withRoom room).acquire S'.recorded world') := by
  by_cases hempty : pool.free.isEmpty = true
  · have hempty' : (pool.withRoom room).free.isEmpty = true := hempty
    have hnone := FreeList.isEmpty_iff.mp hempty
    rw [(Pool.acquire_of_none S.recorded hnone world).2.2,
      (Pool.acquire_of_none S'.recorded (FreeList.isEmpty_iff.mp hempty') world').2.2] at h
    have hgrowth := grow_alike hworld h
    simp only [Pool.acquire, if_pos hempty, if_pos hempty', nextGrowth_withRoom]
    generalize pool.grow S.recorded pool.nextGrowth world = growth at hgrowth
    generalize (pool.withRoom room).grow S'.recorded pool.nextGrowth world' = growth' at hgrowth
    obtain ⟨⟨hresult, hevents, hdestroyed, hafter⟩, room', hpool⟩ := hgrowth
    rw [hresult]
    cases growth.result with
    | error stop => exact ⟨⟨rfl, hevents, hdestroyed, hafter⟩, room', hpool⟩
    | ok done =>
        simp only [hpool, hafter.memory_eq, take_withRoom]
        exact ⟨⟨rfl, hevents, hdestroyed, hafter⟩, room', rfl⟩
  · have hempty' : ¬ (pool.withRoom room).free.isEmpty = true := hempty
    simp only [Pool.acquire, if_neg hempty, if_neg hempty', hworld.memory_eq, take_withRoom]
    exact ⟨⟨rfl, rfl, rfl, hworld⟩, room, rfl⟩

theorem insert_alike (value : T.Value) (hworld : world.Alike world')
    (h : Together tape (pool.insert S.recorded value world).world.supply.calls
      ((pool.withRoom room).insert S'.recorded value world').world.supply.calls) :
    (pool.insert S.recorded value world).Alike
      ((pool.withRoom room).insert S'.recorded value world') := by
  rw [(pool.insert_backing S.recorded value world).2,
    ((pool.withRoom room).insert_backing S'.recorded value world').2] at h
  obtain ⟨⟨hresult, hevents, hdestroyed, hafter⟩, room', hpool⟩ := acquire_alike hworld h
  simp only [Pool.insert, hresult]
  cases (pool.acquire S.recorded world).result with
  | error stop =>
      exact ⟨⟨rfl, hevents, by rw [hdestroyed], hafter⟩, room', hpool⟩
  | ok item =>
      exact ⟨⟨rfl, hevents, hdestroyed, by rw [hafter.memory_eq], hafter.answers_eq⟩, room', hpool⟩

theorem release_alike (item : Nat) (hworld : world.Alike world') :
    (pool.release item world).Alike ((pool.withRoom room).release item world') := by
  simp only [Pool.release, free_withRoom, hworld.memory_eq]
  exact ⟨⟨rfl, rfl, rfl, rfl, hworld.answers_eq⟩, room, rfl⟩

theorem remove_alike (item : Nat) (hworld : world.Alike world') :
    (pool.remove item world).Alike ((pool.withRoom room).remove item world') := by
  simp only [Pool.remove, hworld.memory_eq]
  cases T.finalise (T.load world.memory item).val with
  | some message => exact ⟨⟨rfl, rfl, rfl, hworld⟩, room, rfl⟩
  | none =>
      have hrelease : (pool.release item world).Alike ((pool.withRoom room).release item world') :=
        release_alike item hworld
      obtain ⟨⟨hresult, hevents, -, hafter⟩, room', hpool⟩ := hrelease
      exact ⟨⟨hresult, hevents, rfl, hafter⟩, room', hpool⟩

theorem destroy_alike (hworld : world.Alike world')
    (h : Together tape (pool.destroy S.recorded world).world.supply.calls
      ((pool.withRoom room).destroy S'.recorded world').world.supply.calls) :
    (pool.destroy S.recorded world).Alike ((pool.withRoom room).destroy S'.recorded world') := by
  rw [supply_destroy, supply_destroy, allocator_withRoom, slabs_withRoom] at h
  obtain ⟨hresult, hanswers⟩ := Slab.releaseAll_together pool.allocator pool.index.slabs
    hworld.answers_eq h
  simp only [Pool.destroy, allocator_withRoom, slabs_withRoom]
  rcases hleft : Slab.releaseAll S.recorded pool.allocator pool.index.slabs world.supply with
    ⟨result, after⟩
  rcases hright : Slab.releaseAll S'.recorded pool.allocator pool.index.slabs world'.supply with
    ⟨result', after'⟩
  rw [hleft, hright] at hresult hanswers
  obtain rfl : result' = result := hresult
  cases result' with
  | error fault => exact ⟨⟨rfl, rfl, rfl, hworld.memory_eq, hanswers⟩, room, rfl⟩
  | ok done => exact ⟨⟨rfl, rfl, rfl, hworld.memory_eq, hanswers⟩, 0, rfl⟩

theorem drop_alike (hworld : world.Alike world')
    (h : Together tape (pool.drop S.recorded world).world.supply.calls
      ((pool.withRoom room).drop S'.recorded world').world.supply.calls) :
    (pool.drop S.recorded world).Alike ((pool.withRoom room).drop S'.recorded world') := by
  rw [drop_eq, drop_eq] at h ⊢
  obtain ⟨⟨hresult, -, -, hafter⟩, -⟩ := destroy_alike hworld h
  exact ⟨hresult, rfl, rfl, hafter⟩

end Pool

/-! ### Making pools -/

theorem Turn.Alike.made {turn : Turn T α (Recorded α σ) Unit} {turn' : Turn T α (Recorded α τ) Unit}
    (h : turn.Alike turn') :
    ∃ room, (turn'.result.map fun () => turn'.pool) =
      (turn.result.map fun () => turn.pool).map fun pool => pool.withRoom room := by
  obtain ⟨⟨hresult, -, -, -⟩, room, hpool⟩ := h
  refine ⟨room, ?_⟩
  rw [hresult, hpool]
  cases turn.result with
  | error stop => rfl
  | ok done => rfl

theorem Blueprint.build_alike (plan : Blueprint α) {world : World (Recorded α σ)}
    {world' : World (Recorded α τ)} (hworld : world.Alike world')
    (h : Together tape (plan.build S.recorded T world).world.supply.calls
      (plan.build S'.recorded T world').world.supply.calls) :
    (plan.build S.recorded T world).world.Alike (plan.build S'.recorded T world').world ∧
      (plan.build S'.recorded T world').events = (plan.build S.recorded T world).events ∧
      (plan.build S'.recorded T world').destroyed = (plan.build S.recorded T world).destroyed ∧
      ∃ room, (plan.build S'.recorded T world').result =
        (plan.build S.recorded T world).result.map fun pool => pool.withRoom room := by
  cases hinitial : plan.initial with
  | none =>
      simp only [build, hinitial] at h ⊢
      exact ⟨hworld, trivial, trivial, 0, rfl⟩
  | some capacity =>
      simp only [build, hinitial] at h ⊢
      have hgrowth : Turn.Alike
          (Pool.grow S.recorded { allocator := plan.allocator } capacity world)
          (Pool.grow S'.recorded (Pool.withRoom { allocator := plan.allocator } 0) capacity
            world') :=
        Pool.grow_alike hworld h
      exact ⟨hgrowth.world, hgrowth.events_eq, hgrowth.destroyed_eq, hgrowth.made⟩

/-! ### Requests -/

namespace Account

variable {account : Account T α} {room : Nat} {world : World (Recorded α σ)}
  {world' : World (Recorded α τ)}

theorem handOut_alike (value : Option T.Value) {turn : Turn T α (Recorded α σ) Nat}
    {turn' : Turn T α (Recorded α τ) Nat} (h : turn.Alike turn') :
    (account.handOut value turn).Alike ((account.withRoom room).handOut value turn') := by
  obtain ⟨⟨hresult, hevents, hdestroyed, hafter⟩, room', hpool⟩ := h
  simp only [handOut, hresult, hpool]
  cases turn.result with
  | error stop => exact ⟨⟨rfl, hevents, hdestroyed, hafter⟩, room', rfl⟩
  | ok item => exact ⟨⟨rfl, hevents, hdestroyed, hafter⟩, room', rfl⟩

theorem takeBack_alike (item : Nat) {turn : Turn T α (Recorded α σ) Unit}
    {turn' : Turn T α (Recorded α τ) Unit} (h : turn.Alike turn') :
    (account.takeBack item turn).Alike ((account.withRoom room).takeBack item turn') := by
  obtain ⟨⟨hresult, hevents, hdestroyed, hafter⟩, room', hpool⟩ := h
  simp only [takeBack, hresult, hpool]
  cases turn.result with
  | error stop => exact ⟨⟨rfl, hevents, hdestroyed, hafter⟩, room', rfl⟩
  | ok done => exact ⟨⟨rfl, hevents, hdestroyed, hafter⟩, room', rfl⟩

theorem serve_alike (request : Request T Nat) (hworld : world.Alike world')
    (h : Together tape (account.serve S.recorded world request).world.supply.calls
      ((account.withRoom room).serve S'.recorded world' request).world.supply.calls) :
    (account.serve S.recorded world request).Alike
      ((account.withRoom room).serve S'.recorded world' request) := by
  cases request with
  | acquire => exact handOut_alike none (Pool.acquire_alike hworld h)
  | insert value => exact handOut_alike (some value) (Pool.insert_alike value hworld h)
  | release item => exact takeBack_alike item (Pool.release_alike item hworld)
  | remove item => exact takeBack_alike item (Pool.remove_alike item hworld)
  | grow capacity =>
      obtain ⟨⟨hresult, hevents, hdestroyed, hafter⟩, room', hpool⟩ := Pool.grow_alike hworld h
      simp only [serve, pool_withRoom, hresult, hpool]
      exact ⟨⟨rfl, hevents, hdestroyed, hafter⟩, room', rfl⟩
  | check =>
      have hcheck : (account.withRoom room).pool.check world'.memory =
          account.pool.check world.memory := by
        rw [hworld.memory_eq]
        rfl
      simp only [serve, hcheck]
      split
      · exact ⟨⟨rfl, rfl, rfl, hworld⟩, room, rfl⟩
      · exact ⟨⟨rfl, rfl, rfl, hworld⟩, room, rfl⟩
  | destroy =>
      obtain ⟨⟨hresult, hevents, hdestroyed, hafter⟩, room', hpool⟩ := Pool.destroy_alike hworld h
      simp only [serve, pool_withRoom, hresult, hpool]
      exact ⟨⟨rfl, hevents, hdestroyed, hafter⟩, room', rfl⟩
  | read item =>
      simp only [serve, hworld.memory_eq]
      exact ⟨⟨rfl, rfl, rfl, hworld⟩, room, rfl⟩
  | write item value =>
      simp only [serve, hworld.memory_eq]
      exact ⟨⟨rfl, rfl, rfl, rfl, hworld.answers_eq⟩, room, rfl⟩
  | scribble item offset words =>
      simp only [serve, hworld.memory_eq]
      exact ⟨⟨rfl, rfl, rfl, rfl, hworld.answers_eq⟩, room, rfl⟩

end Account

end SlabPool
