import SlabPool.Host.Collaborator
import SlabPool.Proofs.Estate.Balance
import SlabPool.Session.Kind

/-!
Block accounting.

A run of any actions on any number of pools leaves a record of calls. As long as no allocator raises
a fault when a block is handed back, the blocks on loan are at every point those of the slabs of the
pools there are (`Estate.accounted_of_run`): none is leaked, none is handed back twice, and none is
handed back with another size or alignment than it was asked for. Clients need not keep any
contract for that, and allocators may refuse or raise faults whenever they are asked for a block.

That a block belongs to one pool only takes an honest allocator, who does not lend it twice.
-/

namespace SlabPool.Estate

variable {ι α σ : Type} {T : ι → ItemType} [Fintype ι] [DecidableEq ι] [DecidableEq α]
  {estate : Estate T α σ}

structure Accounted (S : Supply α σ) (estate : Estate T α σ) : Prop where
  balance : loans estate.calls = ∑ i, (estate.blocks i : Multiset (Loan α))
  faithful : Faithful estate.calls
  ordered : ∀ i, (estate.blocks i).Sublist (lent estate.calls).reverse
  owner : Honest estate.calls →
    (loans estate.calls).Nodup ∧ ∀ loan ∈ loans estate.calls, ∃! i, loan ∈ estate.blocks i
  cleared : ∀ action i, action.Clears i → Quiet (estate.step S action).calls →
    (estate.step S action).calls = handedBack (estate.blocks i) estate.calls ∧
      (estate.step S action).blocks i = []
  uncleared : ∀ action : Action T α, (∀ i, ¬ action.Clears i) →
    returned (estate.step S action).calls = returned estate.calls
  unbuilt : ∀ i plan stop, estate.accounts i = none →
    (plan.build S.recorded (T i) estate.world).result = .error stop →
      (estate.step S (.build i plan)).accounts i = none ∧
        Idle estate.calls (estate.step S (.build i plan)).calls
  settled : (∀ i, estate.blocks i = []) →
    loans estate.calls = 0 ∧ (lent estate.calls).Perm (returned estate.calls)

namespace Balanced

omit [DecidableEq ι] in
theorem loans_eq (h : estate.Balanced) (hquiet : Quiet estate.calls) :
    loans estate.calls = ∑ i, (estate.blocks i : Multiset (Loan α)) := by
  obtain ⟨lost, hbalance, hlost⟩ := h.balance
  rw [hbalance, hlost hquiet, add_zero]

omit [Fintype ι] [DecidableEq ι] [DecidableEq α] in
/-- A block of a pool is not empty, so it is not apart from itself. -/
theorem not_apart_self {i : ι} {loan : Loan α} (hloan : loan ∈ estate.blocks i) :
    ¬ loan.Apart loan := by
  cases hfound : estate.accounts i with
  | none =>
      rw [blocks_of_none hfound] at hloan
      cases hloan
  | some account =>
      rw [blocks_of_some hfound] at hloan
      obtain ⟨slab, -, rfl⟩ := List.mem_map.mp hloan
      have hbytes : 0 < slab.bytes := Nat.mul_pos (T i).size_pos slab.capacity.property
      simp only [Loan.Apart, Slab.loan]
      omega

/-- With honest allocators, a block on loan is the block of one pool. -/
theorem owner (h : estate.Balanced) (hquiet : Quiet estate.calls) (hhonest : Honest estate.calls) :
    (loans estate.calls).Nodup ∧ ∀ loan ∈ loans estate.calls, ∃! i, loan ∈ estate.blocks i := by
  have hexists : ∀ loan ∈ loans estate.calls, ∃ i, loan ∈ estate.blocks i := by
    intro loan hloan
    rw [h.loans_eq hquiet, Multiset.mem_sum] at hloan
    obtain ⟨i, -, hi⟩ := hloan
    exact ⟨i, hi⟩
  -- a block that is on loan twice would be apart from itself
  have honce : ∀ loan, ¬ loan ::ₘ {loan} ≤ loans estate.calls := by
    intro loan hle
    obtain ⟨i, hi⟩ := hexists loan (Multiset.mem_of_le hle (Multiset.mem_cons_self _ _))
    exact not_apart_self hi (hhonest.apart hle)
  refine ⟨Multiset.nodup_iff_ne_cons_cons.mpr ?_, ?_⟩
  · intro loan rest heq
    apply honce loan
    rw [heq]
    exact Multiset.cons_le_cons _ (Multiset.singleton_le.mpr (Multiset.mem_cons_self _ _))
  · intro loan hloan
    obtain ⟨i, hi⟩ := hexists loan hloan
    refine ⟨i, hi, ?_⟩
    intro j hj
    by_contra hne
    exact honce loan (h.pair_le hne hj hi)

/-- The end of all slabs of a pool hands back its blocks, in order, and nothing else. -/
theorem cleared (S : Supply α σ) (h : estate.Balanced) {action : Action T α} {i : ι}
    (hclears : action.Clears i) (hquiet : Quiet (estate.step S action).calls) :
    (estate.step S action).calls = handedBack (estate.blocks i) estate.calls ∧
      (estate.step S action).blocks i = [] := by
  generalize hafter : estate.step S action = after at hquiet
  have hstepped := hafter ▸ estate.stepped S action
  cases hstepped with
  | skipped _ hidle =>
      rw [blocks_of_none (hidle i hclears)]
      exact ⟨rfl, rfl⟩
  | built | unbuilt | disturbed => exact hclears.elim
  | served j account request served hfound hserved =>
      obtain ⟨rfl, rfl⟩ := hclears
      have hturnover := hserved ▸ account.serve_turnover S (h.fits j account hfound)
        estate.world .destroy
      obtain ⟨⟨result, hback⟩, hempty⟩ := hturnover.handBack
      rw [blocks_of_some hfound, blocks_of_some (accounts_put_self ..)]
      exact ⟨hback.calls_eq_of_quiet hquiet, hempty⟩
  | dropped j account reply hfound hreply =>
      obtain rfl : j = i := hclears
      obtain ⟨result, hback⟩ := hreply ▸ account.pool.drop_handBack S (h.fits j account hfound)
        estate.world
      rw [blocks_of_some hfound, blocks_of_none (accounts_put_self ..)]
      exact ⟨hback.calls_eq_of_quiet hquiet, rfl⟩

theorem uncleared (S : Supply α σ) (h : estate.Balanced) {action : Action T α}
    (hclears : ∀ i, ¬ action.Clears i) :
    returned (estate.step S action).calls = returned estate.calls := by
  generalize hafter : estate.step S action = after
  have hstepped := hafter ▸ estate.stepped S action
  cases hstepped with
  | skipped | disturbed => rfl
  | built i plan reply pool _ hreply hresult =>
      have hbuilt := hreply ▸ Blueprint.build_built (T := T i) S plan estate.world
      exact (hbuilt.turnover hresult).returned_eq nofun
  | unbuilt i plan reply stop _ hreply hresult =>
      have hbuilt := hreply ▸ Blueprint.build_built (T := T i) S plan estate.world
      exact (hbuilt.of_error hresult).2.returned_eq
  | served i account request served hfound hserved =>
      have hturnover := hserved ▸ account.serve_turnover S (h.fits i account hfound)
        estate.world request
      exact hturnover.returned_eq fun heq => hclears i ⟨rfl, heq⟩
  | dropped i account reply _ _ => exact absurd rfl (hclears i)

end Balanced

/-- Whatever clients do, the accounts of blocks are in order at any point of a run in which no
allocator raises a fault when a block is handed back. -/
theorem accounted_of_run (S : Supply α σ) (memory : Memory) (state : σ)
    (actions : List (Action T α)) (hquiet : Quiet ((start memory state).run S actions).calls) :
    ((start memory state).run S actions).Accounted S := by
  have hstart : Balanced (start memory state : Estate T α σ) := .start memory state
  have h := hstart.run S actions
  generalize (start memory state).run S actions = estate at h hquiet
  refine ⟨h.loans_eq hquiet, h.faithful, h.ordered, h.owner hquiet,
    fun action i => h.cleared S, fun action => h.uncleared S, ?_, ?_⟩
  · intro i plan stop hmissing hresult
    have hbuilt := Blueprint.build_built (T := T i) S plan estate.world
    have hstep : estate.step S (.build i plan) =
        estate.put i (plan.build S.recorded (T i) estate.world).world none := by
      simp only [step, hmissing, hresult]
      rfl
    rw [hstep]
    exact ⟨accounts_put_self .., (hbuilt.of_error hresult).2⟩
  · intro hempty
    have hnone : loans estate.calls = 0 := by
      rw [h.loans_eq hquiet]
      simp [hempty]
    refine ⟨hnone, ?_⟩
    have hlent := h.faithful.lent_eq
    rw [hnone, zero_add] at hlent
    exact Multiset.coe_eq_coe.mp hlent

/-- Two pools that are closed down. The first was made, grew and was destroyed; the second could not
be made at first, since no block is so large, was made then, and was dropped. -/
def closingDown : List (Action (fun _ : Bool => Kind.pair.itemType) Collaborator) :=
  [.build true { allocator := {}, initial := some 1 },
    .use true .acquire,
    .use true .acquire,
    .build false { allocator := {}, initial := some 18446744073709551615 },
    .build false { allocator := {}, initial := some 3 },
    .use true .destroy,
    .drop false]

theorem accounted_of_closingDown :
    let estate := (start {} {}).run Host.supply closingDown
    (lent estate.calls).length = 3 ∧ loans estate.calls = 0 ∧
      (lent estate.calls).Perm (returned estate.calls) := by
  have haccounted := accounted_of_run Host.supply {} {} closingDown (by decide)
  exact ⟨rfl, haccounted.settled (by decide)⟩

end SlabPool.Estate
