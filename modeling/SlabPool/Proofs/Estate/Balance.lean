import Mathlib.Algebra.Order.BigOperators.Group.Finset
import SlabPool.Proofs.Estate

/-!
The balance of blocks.

At every point of every run, what the allocators have lent and not got back is what the pools have,
and what was lost to faults while slabs were given back: `Estate.Balanced` is that equation between
multisets, together with what it takes to keep it up. Clients have no part in it. They can release
what they do not hold and spoil the free lists, and the balance stands.

Each action is an `Exchange` of the blocks of one pool, so there is one step to prove
(`Balanced.put`).
-/

namespace SlabPool

variable {ι α σ : Type} {T : ι → ItemType}

/-! ### Pools that are dropped -/

theorem Pool.drop_handBack (S : Supply α σ) {T : ItemType} {pool : Pool T α}
    (hfits : ∀ slab ∈ pool.index.slabs, slab.Fits) (world : World (Recorded α σ)) :
    ∃ result, HandBack (Account.loans { pool }) world.supply.calls
      (pool.drop S.recorded world).world.supply.calls result := by
  obtain ⟨result, -, hback⟩ := Pool.handBack_destroy S hfits world
  rw [Pool.drop_eq]
  exact ⟨result, hback⟩

namespace Estate

variable [Fintype ι]

/-- Where one pool at most is another, its blocks can be counted apart from those of all others. -/
theorem sum_blocks_eq [DecidableEq ι] {estate after : Estate T α σ} {i : ι}
    (h : ∀ j, j ≠ i → after.accounts j = estate.accounts j) :
    ∑ j, (after.blocks j : Multiset (Loan α)) =
      after.blocks i + ∑ j ∈ {i}ᶜ, (estate.blocks j : Multiset (Loan α)) := by
  rw [Fintype.sum_eq_add_sum_compl i]
  congr 1
  apply Finset.sum_congr rfl
  intro j hj
  rw [Finset.mem_compl, Finset.mem_singleton] at hj
  rw [blocks, blocks, h j hj]

theorem blocks_le_sum (estate : Estate T α σ) (i : ι) :
    (estate.blocks i : Multiset (Loan α)) ≤ ∑ j, (estate.blocks j : Multiset (Loan α)) :=
  Finset.single_le_sum (fun _ _ => Multiset.zero_le _) (Finset.mem_univ i)

structure Balanced [DecidableEq α] (estate : Estate T α σ) : Prop where
  fits : ∀ i account, estate.accounts i = some account →
    ∀ slab ∈ account.pool.index.slabs, slab.Fits
  faithful : Faithful estate.calls
  balance : ∃ lost : Multiset (Loan α),
    loans estate.calls = (∑ i, (estate.blocks i : Multiset (Loan α))) + lost ∧
      (Quiet estate.calls → lost = 0)
  ordered : ∀ i, (estate.blocks i).Sublist (lent estate.calls).reverse

namespace Balanced

variable [DecidableEq α] {estate : Estate T α σ}

theorem start (memory : Memory) (state : σ) :
    Balanced (Estate.start memory state : Estate T α σ) where
  fits := by
    intro i account h
    cases h
  faithful := trivial
  balance := by
    refine ⟨0, ?_, fun _ => rfl⟩
    simp [Estate.start, Estate.calls, blocks, loans]
  ordered _ := List.nil_sublist _

variable [DecidableEq ι]

theorem put (h : estate.Balanced) {i : ι} {world : World (Recorded α σ)}
    {account : Option (Account (T i) α)}
    (hexchange : Exchange (estate.blocks i) estate.calls
      ((estate.put i world account).blocks i) world.supply.calls)
    (hfits : ∀ after, account = some after → ∀ slab ∈ after.pool.index.slabs, slab.Fits) :
    (estate.put i world account).Balanced where
  fits := by
    intro j other hother
    by_cases hj : j = i
    · subst hj
      rw [accounts_put_self] at hother
      exact hfits other hother
    · rw [accounts_put_of_ne _ _ _ _ hj] at hother
      exact h.fits j other hother
  faithful := by
    obtain ⟨lost, hbalance, -⟩ := h.balance
    rw [Fintype.sum_eq_add_sum_compl i, add_assoc] at hbalance
    exact hexchange.faithful hbalance h.faithful
  balance := by
    obtain ⟨lost, hbalance, hquiet⟩ := h.balance
    -- to the pool in question, the blocks of all others are the rest
    rw [Fintype.sum_eq_add_sum_compl i, add_assoc] at hbalance
    obtain ⟨newly, hloans, hnewly⟩ := hexchange.exists_lost hbalance
    refine ⟨newly + lost, ?_, ?_⟩
    · rw [sum_blocks_eq fun j hj => accounts_put_of_ne estate i world account hj, calls_put, hloans,
        add_left_comm newly, add_assoc]
    · intro hafter
      have hbefore : Quiet estate.calls := by
        obtain ⟨new, hnew⟩ := hexchange.suffix
        rw [calls_put, ← hnew] at hafter
        exact hafter.of_append
      rw [hnewly hafter, hquiet hbefore, add_zero]
  ordered := by
    intro j
    by_cases hj : j = i
    · subst hj
      exact hexchange.sublist_lent (h.ordered j)
    · rw [blocks_put_of_ne _ _ _ _ hj]
      have hgrow := hexchange.suffix.filterMap Call.lent?
      exact (h.ordered j).trans (List.reverse_sublist.mpr hgrow.sublist)

omit [DecidableEq ι] in
/-- Memory has no part in it. -/
theorem withMemory (h : estate.Balanced) (memory : Memory) : (estate.withMemory memory).Balanced :=
  ⟨h.fits, h.faithful, h.balance, h.ordered⟩

/-- Every action is an exchange of the blocks of one pool, if it is about one. -/
theorem exchanged (S : Supply α σ) (h : estate.Balanced) (action : Action T α) :
    (∃ memory, estate.step S action = estate.withMemory memory) ∨
      ∃ i world account, estate.step S action = estate.put i world account ∧
        Exchange (estate.blocks i) estate.calls
          ((estate.put i world account).blocks i) world.supply.calls ∧
        ∀ after, account = some after → ∀ slab ∈ after.pool.index.slabs, slab.Fits := by
  generalize hafter : estate.step S action = after
  have hstepped := hafter ▸ estate.stepped S action
  cases hstepped with
  | skipped => exact .inl ⟨_, rfl⟩
  | disturbed => exact .inl ⟨_, rfl⟩
  | built i plan reply pool hmissing hreply hresult =>
      have hbuilt := hreply ▸ Blueprint.build_built (T := T i) S plan estate.world
      have hturnover := hbuilt.turnover hresult
      refine .inr ⟨i, reply.world, _, rfl, ?_, ?_⟩
      · rw [blocks_of_none hmissing, blocks_of_some (accounts_put_self ..)]
        exact hturnover.exchange
      · rintro _ ⟨⟩
        exact hturnover.fits (by simp)
  | unbuilt i plan reply stop hmissing hreply hresult =>
      have hbuilt := hreply ▸ Blueprint.build_built (T := T i) S plan estate.world
      refine .inr ⟨i, reply.world, _, rfl, ?_, nofun⟩
      rw [blocks_of_none hmissing, blocks_of_none (accounts_put_self ..)]
      exact .still rfl (hbuilt.of_error hresult).2
  | served i account request served hfound hserved =>
      have hfits := h.fits i account hfound
      have hturnover := hserved ▸ account.serve_turnover S hfits estate.world request
      refine .inr ⟨i, served.world, _, rfl, ?_, ?_⟩
      · rw [blocks_of_some hfound, blocks_of_some (accounts_put_self ..)]
        exact hturnover.exchange
      · rintro _ ⟨⟩
        exact hturnover.fits hfits
  | dropped i account reply hfound hreply =>
      have hfits := h.fits i account hfound
      obtain ⟨result, hback⟩ := hreply ▸ account.pool.drop_handBack S hfits estate.world
      refine .inr ⟨i, reply.world, _, rfl, ?_, nofun⟩
      rw [blocks_of_some hfound, blocks_of_none (accounts_put_self ..)]
      exact .ended result rfl hback

theorem step (S : Supply α σ) (h : estate.Balanced) (action : Action T α) :
    (estate.step S action).Balanced := by
  obtain ⟨memory, hsame⟩ | ⟨i, world, account, hput, hexchange, hfits⟩ := h.exchanged S action
  · rw [hsame]
    exact h.withMemory memory
  · rw [hput]
    exact h.put hexchange hfits

theorem run (S : Supply α σ) (h : estate.Balanced) (actions : List (Action T α)) :
    (estate.run S actions).Balanced := by
  induction actions generalizing estate with
  | nil => exact h
  | cons action actions ih => exact ih (h.step S action)

/-! ### Blocks on loan -/

omit [DecidableEq ι] in
theorem blocks_le (h : estate.Balanced) (i : ι) :
    (estate.blocks i : Multiset (Loan α)) ≤ loans estate.calls := by
  obtain ⟨lost, hbalance, -⟩ := h.balance
  rw [hbalance]
  exact (estate.blocks_le_sum i).trans (Multiset.le_add_right _ _)

/-- Blocks of two pools are two blocks on loan. -/
theorem pair_le (h : estate.Balanced) {i j : ι} (hne : i ≠ j) {loan other : Loan α}
    (hloan : loan ∈ estate.blocks i) (hother : other ∈ estate.blocks j) :
    loan ::ₘ {other} ≤ loans estate.calls := by
  obtain ⟨lost, hbalance, -⟩ := h.balance
  have hpair : loan ::ₘ {other} ≤
      (estate.blocks i : Multiset (Loan α)) + (estate.blocks j : Multiset (Loan α)) :=
    add_le_add (Multiset.singleton_le.mpr hloan) (Multiset.singleton_le.mpr hother)
  have hmembers : (estate.blocks i : Multiset (Loan α)) + (estate.blocks j : Multiset (Loan α)) ≤
      ∑ k, (estate.blocks k : Multiset (Loan α)) := by
    rw [← Finset.sum_pair (f := fun k => (estate.blocks k : Multiset (Loan α))) hne]
    exact Finset.sum_le_sum_of_subset (Finset.subset_univ _)
  rw [hbalance]
  exact (hpair.trans hmembers).trans (Multiset.le_add_right _ _)

omit [DecidableEq ι] in
theorem backed (h : estate.Balanced) {i : ι} {account : Account (T i) α}
    (hfound : estate.accounts i = some account) : account.Backed estate.calls := by
  have hle := h.blocks_le i
  rw [blocks_of_some hfound] at hle
  exact ⟨h.fits i account hfound, hle⟩

omit [DecidableEq ι] in
/-- Where allocators are honest, the slots of every pool lie as they should. -/
theorem spread (h : estate.Balanced) (hhonest : Honest estate.calls) {i : ι}
    {account : Account (T i) α} (hfound : estate.accounts i = some account) :
    account.pool.index.Spread :=
  (h.backed hfound).spread hhonest

theorem spread_of_build (h : estate.Balanced) {S : Supply α σ} {i : ι} {plan : Blueprint α}
    (hmissing : estate.accounts i = none)
    (hhonest : Honest (estate.step S (.build i plan)).calls) :
    ∀ pool, (plan.build S.recorded (T i) estate.world).result = .ok pool →
      pool.index.Spread := by
  intro pool hresult
  have hfound : (estate.step S (.build i plan)).accounts i = some { pool } := by
    simp only [Estate.step, hmissing, hresult, accounts_put_self]
    rfl
  exact (h.step S (.build i plan)).spread hhonest hfound

theorem spread_of_use (h : estate.Balanced) {S : Supply α σ} {i : ι} {request : Request (T i) Nat}
    {account : Account (T i) α} (hfound : estate.accounts i = some account)
    (hhonest : Honest (estate.step S (.use i request)).calls) :
    (account.serve S.recorded estate.world request).account.pool.index.Spread :=
  (h.step S (.use i request)).spread hhonest (accounts_step_use S hfound request)

end Balanced

end Estate

end SlabPool
