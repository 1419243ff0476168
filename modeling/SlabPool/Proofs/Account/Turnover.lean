import SlabPool.Proofs.Account
import SlabPool.Proofs.Turnover

/-!
The blocks behind an account.

Of all requests, only those that can make a pool grow are answered with a new block, and only the
end of all slabs hands blocks back: `Account.Turnover` lists what a request can do to the slabs and
to the record of calls, and `Account.serve_turnover` says that there is nothing else. No contract of
clients is needed for that, since neither the free list nor the items have a part in it.

For the blocks it is an `Exchange`, and what follows for the record of calls follows from that. In
particular, an account whose blocks are on loan stays `Backed` by them.
-/

namespace SlabPool

variable {T : ItemType} {α σ : Type}

/-! ### Slots that are handed out -/

theorem Pool.take_index (pool : Pool T α) (memory : Memory) :
    (pool.take memory).2.index = pool.index ∧ (pool.take memory).2.allocator = pool.allocator := by
  simp only [Pool.take]
  split
  · exact ⟨rfl, rfl⟩
  · split
    · exact ⟨rfl, rfl⟩
    · exact ⟨rfl, rfl⟩

/-- The slabs after an acquisition are those there were, or those after growth. -/
theorem Pool.acquire_backing (S : Supply α σ) (pool : Pool T α) (world : World σ) :
    let turn := pool.acquire S world
    let growth := pool.grow S pool.nextGrowth world
    (turn.pool.index = pool.index ∧ turn.pool.allocator = pool.allocator ∧ turn.world = world) ∨
      (turn.pool.index = growth.pool.index ∧ turn.pool.allocator = growth.pool.allocator ∧
        turn.world = growth.world) := by
  intro turn growth
  simp only [turn, Pool.acquire]
  split
  · right
    split
    · exact ⟨rfl, rfl, rfl⟩
    · obtain ⟨hindex, hallocator⟩ := growth.pool.take_index growth.world.memory
      exact ⟨hindex, hallocator, rfl⟩
  · left
    obtain ⟨hindex, hallocator⟩ := pool.take_index world.memory
    exact ⟨hindex, hallocator, rfl⟩

theorem Pool.suffix_acquire (S : Supply α σ) (pool : Pool T α)
    (world : World (Recorded α σ)) :
    world.supply.calls <:+ (pool.acquire S.recorded world).world.supply.calls := by
  obtain ⟨-, -, hworld⟩ | ⟨-, -, hworld⟩ := pool.acquire_backing S.recorded world
  · rw [hworld]
  · rw [hworld]
    exact (pool.grow_growth S pool.nextGrowth world).suffix

/-- A value that is put into a slot, or finds none, makes no difference to the pool. -/
theorem Pool.insert_backing (S : Supply α σ) (pool : Pool T α) (value : T.Value)
    (world : World σ) :
    (pool.insert S value world).pool = (pool.acquire S world).pool ∧
      (pool.insert S value world).world.supply = (pool.acquire S world).world.supply := by
  simp only [Pool.insert]
  split
  · exact ⟨rfl, rfl⟩
  · exact ⟨rfl, rfl⟩

theorem Pool.remove_backing (pool : Pool T α) (item : Nat) (world : World σ) :
    (pool.remove item world).pool.index = pool.index ∧
      (pool.remove item world).pool.allocator = pool.allocator ∧
      (pool.remove item world).world.supply = world.supply := by
  simp only [Pool.remove]
  split
  · exact ⟨rfl, rfl, rfl⟩
  · exact ⟨rfl, rfl, rfl⟩

theorem Pool.acquired_remove (pool : Pool T α) (item : Nat) (world : World σ) :
    (pool.remove item world).pool.acquired = pool.acquired := by
  simp only [Pool.remove]
  split
  · rfl
  · rfl

/-! ### Requests -/

namespace Account

def loans (account : Account T α) : List (Loan α) :=
  account.pool.index.loans account.pool.allocator

theorem loans_eq_map (account : Account T α) :
    account.loans = account.pool.index.slabs.map (Slab.loan account.pool.allocator) := rfl

/-- What a request can do to the slabs of an account and to the record of calls. -/
inductive Turnover (account : Account T α) (request : Request T Nat) (before : List (Call α))
    (after : Account T α) (calls : List (Call α)) : Prop
  | still
      (request_ne : request ≠ .destroy)
      (slabs_eq : after.pool.index.slabs = account.pool.index.slabs)
      (allocator_eq : after.pool.allocator = account.pool.allocator)
      (idle : Idle before calls)
  | grown (slab : Slab T) (earlier : List (Call α))
      (request_ne : request ≠ .destroy)
      (fits : slab.Fits)
      (slabs_eq : after.pool.index.slabs = account.pool.index.slabs ++ [slab])
      (allocator_eq : after.pool.allocator = account.pool.allocator)
      (idle : Idle before earlier)
      (calls_eq : calls =
        .allocate account.pool.allocator ⟨slab.bytes, T.align⟩ (.ok slab.first) :: earlier)
  | ended (result : Except Fault Unit)
      (request_eq : request = .destroy)
      (slabs_eq : after.pool.index.slabs = [])
      (allocator_eq : after.pool.allocator = account.pool.allocator)
      (handBack : HandBack account.loans before calls result)

theorem turnover_of_growth {account after : Account T α} {request : Request T Nat}
    {capacity : Capacity} {world : World (Recorded α σ)} {turn : Turn T α (Recorded α σ) Unit}
    (hne : request ≠ .destroy) (h : account.pool.Growth capacity world turn)
    (hindex : after.pool.index = turn.pool.index)
    (hallocator : after.pool.allocator = turn.pool.allocator) :
    account.Turnover request world.supply.calls after turn.world.supply.calls := by
  cases h with
  | failed stop reserved _ hpool _ hidle =>
      rw [hpool] at hindex hallocator
      exact .still hne (by rw [hindex]) hallocator hidle
  | added slab reserved free earlier _ _ hfits _ hpool hidle hcalls =>
      rw [hpool] at hindex hallocator
      exact .grown slab earlier hne hfits (by rw [hindex]) hallocator hidle hcalls

theorem turnover_of_acquire (S : Supply α σ) (account after : Account T α)
    (request : Request T Nat) (hne : request ≠ .destroy) (world : World (Recorded α σ))
    (hpool : after.pool = (account.pool.acquire S.recorded world).pool) :
    account.Turnover request world.supply.calls after
      (account.pool.acquire S.recorded world).world.supply.calls := by
  obtain ⟨hindex, hallocator, hworld⟩ | ⟨hindex, hallocator, hworld⟩ :=
    account.pool.acquire_backing S.recorded world
  · rw [hworld]
    exact .still hne (by rw [hpool, hindex]) (by rw [hpool, hallocator]) (Idle.refl _)
  · rw [hworld]
    exact turnover_of_growth hne (account.pool.grow_growth S _ world) (by rw [hpool, hindex])
      (by rw [hpool, hallocator])

theorem handOut_pool (account : Account T α) (value : Option T.Value) (turn : Turn T α σ Nat) :
    (account.handOut value turn).account.pool = turn.pool := by
  simp only [handOut]
  split
  · rfl
  · rfl

theorem takeBack_pool (account : Account T α) (item : Nat) (turn : Turn T α σ Unit) :
    (account.takeBack item turn).account.pool = turn.pool := by
  simp only [takeBack]
  split
  · rfl
  · rfl

theorem serve_turnover (S : Supply α σ) {account : Account T α}
    (hfits : ∀ slab ∈ account.pool.index.slabs, slab.Fits) (world : World (Recorded α σ))
    (request : Request T Nat) :
    let served := account.serve S.recorded world request
    account.Turnover request world.supply.calls served.account served.world.supply.calls := by
  cases request with
  | acquire =>
      exact account.turnover_of_acquire S _ .acquire (by simp) world (account.handOut_pool _ _)
  | insert value =>
      obtain ⟨hpool, hsupply⟩ := account.pool.insert_backing S.recorded value world
      -- the value is written after the acquisition, and the supply has no part in that
      have hturnover := account.turnover_of_acquire S _ (.insert value) (by simp) world
        ((account.handOut_pool (some value) _).trans hpool)
      rw [← hsupply] at hturnover
      exact hturnover
  | release item =>
      have hpool := account.takeBack_pool item (account.pool.release item world)
      refine .still (by simp) ?_ ?_ (Idle.refl _)
      · exact congrArg (·.index.slabs) hpool
      · exact congrArg (·.allocator) hpool
  | remove item =>
      have hpool := account.takeBack_pool item (account.pool.remove item world)
      obtain ⟨hindex, hallocator, hsupply⟩ := account.pool.remove_backing item world
      refine .still (by simp) ?_ ?_ ?_
      · exact (congrArg (·.index.slabs) hpool).trans (congrArg (·.slabs) hindex)
      · exact (congrArg (·.allocator) hpool).trans hallocator
      · exact hsupply ▸ Idle.refl _
  | grow capacity =>
      exact turnover_of_growth (by simp) (account.pool.grow_growth S capacity world) rfl rfl
  | check =>
      simp only [serve]
      split
      · exact .still (by simp) rfl rfl (Idle.refl _)
      · exact .still (by simp) rfl rfl (Idle.refl _)
  | destroy =>
      have hback := Slab.releaseAll_handBack S account.pool.allocator hfits world.supply
      simp only [serve, Pool.destroy]
      split
      · next fault record heq =>
          rw [heq] at hback
          exact .ended (.error fault) rfl rfl rfl hback
      · next record heq =>
          rw [heq] at hback
          exact .ended (.ok ()) rfl rfl rfl hback
  | read item => exact .still (by simp) rfl rfl (Idle.refl _)
  | write item value => exact .still (by simp) rfl rfl (Idle.refl _)
  | scribble item offset words => exact .still (by simp) rfl rfl (Idle.refl _)

/-- No request takes anything off the record of calls. -/
theorem suffix_serve (S : Supply α σ) (account : Account T α)
    (world : World (Recorded α σ)) (request : Request T Nat) :
    world.supply.calls <:+ (account.serve S.recorded world request).world.supply.calls := by
  cases request with
  | acquire => exact account.pool.suffix_acquire S world
  | insert value =>
      simp only [serve, handOut, (account.pool.insert_backing S.recorded value world).2]
      exact account.pool.suffix_acquire S world
  | release item => exact List.suffix_rfl
  | remove item =>
      simp only [serve, takeBack, (account.pool.remove_backing item world).2.2]
      exact List.suffix_rfl
  | grow capacity => exact (account.pool.grow_growth S capacity world).suffix
  | check =>
      simp only [serve]
      split
      · exact List.suffix_rfl
      · exact List.suffix_rfl
  | destroy => exact account.pool.suffix_destroy S world
  | read | write | scribble => exact List.suffix_rfl

namespace Turnover

variable {account after : Account T α} {request : Request T Nat} {before calls : List (Call α)}

theorem fits (h : account.Turnover request before after calls)
    (hfits : ∀ slab ∈ account.pool.index.slabs, slab.Fits) :
    ∀ slab ∈ after.pool.index.slabs, slab.Fits := by
  cases h with
  | still _ hslabs _ _ => rwa [hslabs]
  | grown slab earlier _ hnew hslabs _ _ _ =>
      rw [hslabs]
      intro other hother
      rcases List.mem_append.mp hother with hother | hother
      · exact hfits other hother
      · rw [List.mem_singleton.mp hother]
        exact hnew
  | ended result _ hslabs _ _ => simp [hslabs]

theorem exchange (h : account.Turnover request before after calls) :
    Exchange account.loans before after.loans calls := by
  cases h with
  | still _ hslabs hallocator hidle =>
      refine .still ?_ hidle
      rw [loans_eq_map, loans_eq_map, hslabs, hallocator]
  | grown slab earlier _ _ hslabs hallocator hidle hcalls =>
      refine .lent (slab.loan account.pool.allocator) earlier ?_ hidle hcalls
      rw [loans_eq_map, loans_eq_map, hslabs, hallocator, List.map_append, List.map_singleton]
  | ended result _ hslabs _ hback =>
      refine .ended result ?_ hback
      rw [loans_eq_map, hslabs, List.map_nil]

/-- Nothing is handed back before the end of all slabs. -/
theorem returned_eq (h : account.Turnover request before after calls) (hne : request ≠ .destroy) :
    returned calls = returned before := by
  cases h with
  | still _ _ _ hidle => exact hidle.returned_eq
  | grown slab earlier _ _ _ _ hidle hcalls =>
      rw [hcalls, ← hidle.returned_eq]
      rfl
  | ended result heq _ _ _ => exact absurd heq hne

/-- At the end of all slabs, all blocks are handed back. -/
theorem handBack (h : account.Turnover .destroy before after calls) :
    (∃ result, HandBack account.loans before calls result) ∧ after.loans = [] := by
  cases h with
  | still hne _ _ _ => exact absurd rfl hne
  | grown slab earlier hne _ _ _ _ _ => exact absurd rfl hne
  | ended result _ hslabs _ hback =>
      refine ⟨⟨result, hback⟩, ?_⟩
      rw [loans_eq_map, hslabs, List.map_nil]

/-- Until the end of all slabs, slabs are only added, behind the others. -/
theorem slabs_grow (h : account.Turnover request before after calls)
    (hne : request ≠ .destroy) : account.pool.index.slabs <+: after.pool.index.slabs := by
  cases h with
  | still _ hslabs _ _ => exact hslabs ▸ List.prefix_rfl
  | grown slab earlier _ _ hslabs _ _ _ =>
      rw [hslabs]
      exact List.prefix_append _ _
  | ended result heq _ _ _ => exact absurd heq hne

end Turnover

/-! ### Accounts whose blocks are on loan -/

variable [DecidableEq α]

/-- The blocks behind the account are on loan. -/
structure Backed (account : Account T α) (calls : List (Call α)) : Prop where
  fits : ∀ slab ∈ account.pool.index.slabs, slab.Fits
  le_loans : (account.loans : Multiset (Loan α)) ≤ SlabPool.loans calls

theorem Backed.new (allocator : α) (calls : List (Call α)) :
    Backed ({ pool := { allocator } } : Account T α) calls :=
  ⟨by simp, Multiset.zero_le _⟩

/-- Where allocators are honest, the slots of the pool lie as they should. -/
theorem Backed.spread {account : Account T α} {calls : List (Call α)} (h : account.Backed calls)
    (hhonest : Honest calls) : account.pool.index.Spread :=
  SlabIndex.spread_of_honest hhonest h.le_loans

theorem Turnover.backed {account after : Account T α} {request : Request T Nat}
    {before calls : List (Call α)} (h : account.Turnover request before after calls)
    (hbacked : account.Backed before) : after.Backed calls := by
  obtain ⟨rest, hrest⟩ := Multiset.le_iff_exists_add.mp hbacked.le_loans
  obtain ⟨lost, hloans, -⟩ := h.exchange.exists_lost hrest
  exact ⟨h.fits hbacked.fits, hloans ▸ Multiset.le_add_right _ _⟩

theorem Backed.serve (S : Supply α σ) {account : Account T α} (world : World (Recorded α σ))
    (h : account.Backed world.supply.calls) (request : Request T Nat) :
    (account.serve S.recorded world request).account.Backed
      (account.serve S.recorded world request).world.supply.calls :=
  (account.serve_turnover S h.fits world request).backed h

end Account

/-! ### Pools that are made -/

/-- Making a pool is like a request to a pool without slabs, though not to destroy it. -/
theorem Blueprint.Built.turnover {plan : Blueprint α} {world : World (Recorded α σ)}
    {reply : Reply (Recorded α σ) (Pool T α)} (h : plan.Built world reply) {pool : Pool T α}
    (hresult : reply.result = .ok pool) :
    Account.Turnover { pool := { allocator := plan.allocator } } .check world.supply.calls { pool }
      reply.world.supply.calls := by
  obtain ⟨rfl, hworld⟩ | ⟨capacity, turn, hgrowth, rfl, hworld⟩ := h.of_ok hresult
  · rw [hworld]
    exact .still nofun rfl rfl (Idle.refl _)
  · rw [hworld]
    exact Account.turnover_of_growth nofun hgrowth rfl rfl

end SlabPool
