import Mathlib.Order.Bounds.Defs
import SlabPool.Host.Collaborator
import SlabPool.Proofs.Demand
import SlabPool.Proofs.Estate.Custody
import SlabPool.Session.Kind

/-!
Growth on demand.

A slab that is added because a slot is needed has as many slots as there were acquisitions, and the
number of acquisitions has no visible relation to the slots there are. But when a slot is needed, no
slot is free: all slots are items in use, and of those there are never more than there were
acquisitions. So the slab is at least as large as all others together, and the pool at least
doubles.

`Account.Doubled` is what a run keeps up because of that, along with the number of slabs that were
added on demand. Where slots are acquired and nothing else is done with the pool, the sizes can be
told exactly, and that is `Account.Exact`.

Main statement: `Estate.growth_doubles`.
-/

namespace SlabPool

variable {ι α σ : Type}

/-! ### Sizes -/

/-- The sizes of the slabs of a pool from which slots were acquired and nothing else. -/
def slabSize : Nat → Nat
  | 0 => Pool.minGrowth
  | number + 1 => Pool.minGrowth * 2 ^ number

theorem minGrowth_mul_two_pow_succ (number : Nat) :
    Pool.minGrowth * 2 ^ (number + 1) =
      Pool.minGrowth * 2 ^ number + Pool.minGrowth * 2 ^ number := by
  rw [Nat.pow_succ, ← Nat.mul_assoc, Nat.mul_two]

/-- Each slab after the first is as large as all slabs before it. -/
theorem total_slabSize (number : Nat) :
    Word.total ((List.range (number + 1)).map slabSize) = Pool.minGrowth * 2 ^ number := by
  induction number with
  | zero => rfl
  | succ number ih =>
      rw [List.range_succ, List.map_append, Word.total_append, ih, minGrowth_mul_two_pow_succ]
      rfl

theorem isLeast_of_lt {count steps : Nat} (hle : count ≤ Pool.minGrowth * 2 ^ steps)
    (hgt : ∀ before, steps = before + 1 → Pool.minGrowth * 2 ^ before < count) :
    IsLeast {size | count ≤ size ∧ ∃ number, size = Pool.minGrowth * 2 ^ number}
      (Pool.minGrowth * 2 ^ steps) := by
  refine ⟨⟨hle, steps, rfl⟩, ?_⟩
  rintro _ ⟨hcount, number, rfl⟩
  apply Nat.mul_le_mul_left
  apply Nat.pow_le_pow_right (by decide)
  cases steps with
  | zero => exact Nat.zero_le number
  | succ before =>
      have hlt := Nat.lt_of_mul_lt_mul_left (Nat.lt_of_lt_of_le (hgt before rfl) hcount)
      exact (Nat.pow_lt_pow_iff_right (by decide)).mp hlt

namespace Account

variable {T : ItemType} {account : Account T α} {memory : Memory} {free : List Nat}
  {served : Served T α (Recorded α σ)} {request : Request T Nat}

/-! ### One slab on demand -/

/-- A pool without a free slot grows by at least as many slots as it has. -/
theorem Sound.capacity_le_nextGrowth (h : account.Sound memory [])
    (hheld : account.held.length ≤ account.pool.acquired) :
    account.pool.capacity ≤ account.pool.nextGrowth.val := by
  have hcapacity : account.pool.capacity = account.held.length := by
    rw [h.capacity_eq, List.length_nil, Nat.zero_add]
  rw [hcapacity]
  exact hheld.trans (Nat.le_max_right ..)

theorem Supplied.slab_eq (h : account.Supplied free served)
    (hgrown : served.account.pool.index.slabs ≠ account.pool.index.slabs) :
    free = [] ∧ ∃ slab, served.account.pool.index.slabs = account.pool.index.slabs ++ [slab] ∧
      slab.capacity = account.pool.nextGrowth := by
  cases h with
  | reused _ _ _ _ hslabs _ => exact absurd hslabs hgrown
  | grown slab hfree _ hslabs hcapacity _ => exact ⟨hfree, slab, hslabs, hcapacity⟩
  | refused _ _ hslabs _ => exact absurd hslabs hgrown

theorem capacity_le_of_mem {pool : Pool T α} {slab : Slab T} (h : slab ∈ pool.index.slabs) :
    slab.capacity.val ≤ pool.capacity := by
  obtain ⟨before, after, hslabs⟩ := List.append_of_mem h
  simp only [Pool.capacity, Pool.capacities, SlabIndex.capacities, hslabs, List.map_append,
    List.map_cons, Word.total_append, Word.total_cons]
  omega

/-! ### Any number of slabs on demand -/

/-- The pool has as many slots as it must have after so many slabs that were added on demand. -/
structure Doubled (account : Account T α) (demands : Nat) : Prop where
  held_le : account.held.length ≤ account.pool.acquired
  capacity_ge : 0 < demands → Pool.minGrowth * 2 ^ (demands - 1) ≤ account.pool.capacity

theorem Doubled.mono {after : Account T α} {demands : Nat} (h : account.Doubled demands)
    (hheld : after.held.length ≤ after.pool.acquired)
    (hslabs : account.pool.index.slabs <+: after.pool.index.slabs) : after.Doubled demands where
  held_le := hheld
  capacity_ge := by
    intro hpos
    obtain ⟨more, hmore⟩ := hslabs
    rw [Pool.capacity_append hmore.symm]
    exact Nat.le_add_right_of_le (h.capacity_ge hpos)

theorem Doubled.grow {after : Account T α} {demands : Nat} {slab : Slab T}
    (h : account.Doubled demands) (hsound : account.Sound memory [])
    (hheld : after.held.length ≤ after.pool.acquired)
    (hslabs : after.pool.index.slabs = account.pool.index.slabs ++ [slab])
    (hcapacity : slab.capacity = account.pool.nextGrowth) : after.Doubled (demands + 1) where
  held_le := hheld
  capacity_ge := by
    intro _
    have hafter : after.pool.capacity = account.pool.capacity + account.pool.nextGrowth.val := by
      rw [Pool.capacity_append hslabs, ← hcapacity]
      rfl
    have hdouble := hsound.capacity_le_nextGrowth h.held_le
    rw [hafter, Nat.add_sub_cancel]
    cases demands with
    | zero =>
        rw [Pool.nextGrowth_val]
        omega
    | succ before =>
        have hbefore := h.capacity_ge before.succ_pos
        rw [Nat.add_sub_cancel] at hbefore
        calc Pool.minGrowth * 2 ^ (before + 1)
          _ = Pool.minGrowth * 2 ^ before + Pool.minGrowth * 2 ^ before :=
              minGrowth_mul_two_pow_succ before
          _ ≤ account.pool.capacity + account.pool.nextGrowth.val :=
              Nat.add_le_add hbefore (hbefore.trans hdouble)

/-! ### Acquisitions and nothing else -/

/-- A pool that was empty, and from which slots were acquired since, and nothing else was done. -/
inductive Exact (account : Account T α) : Prop
  | fresh
      (slabs_eq : account.pool.index.slabs = [])
      (acquired_eq : account.pool.acquired = 0)
      (held_eq : account.held = [])
  | grown (steps : Nat)
      (capacities_eq : account.pool.capacities = (List.range (steps + 1)).map slabSize)
      (held_eq : account.held.length = account.pool.acquired)
      (acquired_le : account.pool.acquired ≤ Pool.minGrowth * 2 ^ steps)
      (acquired_gt : ∀ before, steps = before + 1 →
        Pool.minGrowth * 2 ^ before < account.pool.acquired)

theorem Exact.supplied (h : account.Exact) (hsound : account.Sound memory free)
    (hsupplied : account.Supplied free served) : served.account.Exact := by
  have hcapacity := hsound.capacity_eq
  have hsame : served.account.pool.index.slabs = account.pool.index.slabs →
      served.account.pool.capacities = account.pool.capacities :=
    congrArg (List.map fun slab : Slab T => slab.capacity.val)
  cases h with
  | fresh hslabs hacquired hheld =>
      have hnone : account.pool.capacities = [] := by
        simp [Pool.capacities, SlabIndex.capacities, hslabs]
      rw [Pool.capacity, hnone, Word.total_nil] at hcapacity
      cases hsupplied with
      | reused item rest hfree _ _ _ =>
          -- there is no slot yet that could be free
          rw [hfree, List.length_cons] at hcapacity
          omega
      | grown slab _ hheld' hslabs' hgrowth hacquired' =>
          refine .grown 0 ?_ ?_ ?_ ?_
          · rw [Pool.capacities_append hslabs', hnone, List.map_singleton, hgrowth,
              Pool.nextGrowth_val, hacquired]
            rfl
          · rw [hheld', hheld, hacquired', hacquired]
            rfl
          · rw [hacquired', hacquired]
            decide
          · intro before hbefore
            omega
      | refused _ hheld' hslabs' hacquired' =>
          exact .fresh (hslabs'.trans hslabs) (hacquired'.trans hacquired) (hheld'.trans hheld)
  | grown steps hcapacities hheld hle hgt =>
      rw [Pool.capacity, hcapacities, total_slabSize] at hcapacity
      cases hsupplied with
      | reused item rest hfree hheld' hslabs' hacquired' =>
          rw [hfree, List.length_cons] at hcapacity
          refine .grown steps ((hsame hslabs').trans hcapacities) ?_ ?_ ?_
          · rw [hheld', hacquired', List.length_cons, hheld]
          · omega
          · intro before hbefore
            have := hgt before hbefore
            omega
      | grown slab hfree hheld' hslabs' hgrowth hacquired' =>
          -- all slots are in use, and so there are as many as there were acquisitions
          rw [hfree, List.length_nil, Nat.zero_add, hheld] at hcapacity
          have hmin : Pool.minGrowth ≤ account.pool.acquired := by
            rw [← hcapacity]
            exact Nat.le_mul_of_pos_right _ (Nat.two_pow_pos steps)
          refine .grown (steps + 1) ?_ ?_ ?_ ?_
          · rw [Pool.capacities_append hslabs', hcapacities, List.map_singleton, hgrowth,
              Pool.nextGrowth_val, Nat.max_eq_right hmin, ← hcapacity,
              List.range_succ (n := steps + 1), List.map_append]
            rfl
          · rw [hheld', hacquired', List.length_cons, hheld]
          · have hone : 1 ≤ account.pool.acquired := Nat.le_trans (by decide) hmin
            rw [hacquired', minGrowth_mul_two_pow_succ, hcapacity]
            exact Nat.add_le_add_left hone _
          · intro before hbefore
            obtain rfl : steps = before := Nat.succ.inj hbefore
            omega
      | refused _ hheld' hslabs' hacquired' =>
          refine .grown steps ((hsame hslabs').trans hcapacities) ?_ ?_ ?_
          · rw [hheld', hacquired', hheld]
          · rwa [hacquired']
          · rwa [hacquired']

theorem Exact.capacity_isLeast (h : account.Exact) (hpos : 0 < account.held.length) :
    IsLeast {size | account.held.length ≤ size ∧ ∃ number, size = Pool.minGrowth * 2 ^ number}
        account.pool.capacity ∧
      account.pool.capacities = (List.range account.pool.numSlabs).map slabSize := by
  cases h with
  | fresh _ _ hheld =>
      rw [hheld] at hpos
      cases hpos
  | grown steps hcapacities hheld hle hgt =>
      have hslabs : account.pool.numSlabs = steps + 1 := by
        have hlength := congrArg List.length hcapacities
        simpa [Pool.numSlabs, Pool.capacities, SlabIndex.capacities] using hlength
      rw [Pool.capacity, hcapacities, total_slabSize, hslabs, hheld]
      exact ⟨isLeast_of_lt hle hgt, rfl⟩

end Account

/-! ### Runs -/

namespace Action

variable {T : ι → ItemType}

/-- The action asks for a slot of the pool `i`. -/
def Takes (i : ι) : Action T α → Prop
  | use j request => j = i ∧ request.takes = true
  | _ => False

variable [DecidableEq ι]

instance (i : ι) : (action : Action T α) → Decidable (action.Takes i)
  | .use _ _ => inferInstanceAs (Decidable (_ ∧ _))
  | .build _ _ | .drop _ | .elsewhere _ _ => isFalse id

end Action

namespace Estate

variable {T : ι → ItemType}

/-- Where there is the pool `i`, it has grown as it must have. -/
def Doubled (estate : Estate T α σ) (i : ι) (demands : Nat) : Prop :=
  match estate.accounts i with
  | none => demands = 0
  | some account => account.Doubled demands

theorem doubled_of_none {estate : Estate T α σ} {i : ι} (h : estate.accounts i = none)
    {demands : Nat} : estate.Doubled i demands ↔ demands = 0 := by
  rw [Doubled, h]

theorem doubled_of_some {estate : Estate T α σ} {i : ι} {account : Account (T i) α}
    (h : estate.accounts i = some account) {demands : Nat} :
    estate.Doubled i demands ↔ account.Doubled demands := by
  rw [Doubled, h]

theorem length_blocks {estate : Estate T α σ} {i : ι} {account : Account (T i) α}
    (h : estate.accounts i = some account) :
    (estate.blocks i).length = account.pool.index.slabs.length := by
  rw [blocks_of_some h, Account.loans_eq_map, List.length_map]

theorem Doubled.restart {estate : Estate T α σ} {i : ι} {demands : Nat}
    (h : estate.Doubled i demands) : estate.Doubled i 0 := by
  cases hfound : estate.accounts i with
  | none => exact (doubled_of_none hfound).mpr rfl
  | some account =>
      exact (doubled_of_some hfound).mpr ⟨((doubled_of_some hfound).mp h).held_le, nofun⟩

variable [DecidableEq ι]

/-- What an action does to one pool. -/
inductive Passed (S : Supply α σ) (estate : Estate T α σ) (i : ι) (action : Action T α) : Prop
  | still (accounts_eq : (estate.step S action).accounts i = estate.accounts i)
  | opened (plan : Blueprint α) (pool : Pool (T i) α)
      (action_eq : action = .build i plan)
      (accounts_eq : (estate.step S action).accounts i = some { pool })
      (missing : estate.accounts i = none)
  | served (account : Account (T i) α) (request : Request (T i) Nat)
      (action_eq : action = .use i request)
      (found : estate.accounts i = some account)
      (accounts_eq : (estate.step S action).accounts i =
        some (account.serve S.recorded estate.world request).account)
  | closed
      (action_eq : action = .drop i)
      (accounts_eq : (estate.step S action).accounts i = none)

theorem passed (S : Supply α σ) (estate : Estate T α σ) (i : ι) (action : Action T α) :
    estate.Passed S i action := by
  generalize hafter : estate.step S action = after
  have hstepped := hafter ▸ estate.stepped S action
  cases hstepped with
  | skipped => exact .still (by rw [hafter])
  | built j plan reply pool hmissing _ _ =>
      by_cases hj : j = i
      · subst hj
        exact .opened plan pool rfl (by rw [hafter, accounts_put_self]) hmissing
      · exact .still (by rw [hafter, accounts_put_of_ne _ _ _ _ (Ne.symm hj)])
  | unbuilt j plan reply stop hmissing _ _ =>
      by_cases hj : j = i
      · subst hj
        exact .still (by rw [hafter, accounts_put_self, hmissing])
      · exact .still (by rw [hafter, accounts_put_of_ne _ _ _ _ (Ne.symm hj)])
  | served j account request served hfound hserved =>
      by_cases hj : j = i
      · subst hj
        exact .served account request rfl hfound (by rw [hafter, accounts_put_self, hserved])
      · exact .still (by rw [hafter, accounts_put_of_ne _ _ _ _ (Ne.symm hj)])
  | dropped j account reply _ _ =>
      by_cases hj : j = i
      · subst hj
        exact .closed rfl (by rw [hafter, accounts_put_self])
      · exact .still (by rw [hafter, accounts_put_of_ne _ _ _ _ (Ne.symm hj)])
  | disturbed => exact .still (by rw [hafter]; rfl)

/-- How often the pool `i` grew on demand since its slabs were last given back, after one more
action. -/
def demandsAfter (S : Supply α σ) (i : ι) (estate : Estate T α σ) (demands : Nat)
    (action : Action T α) : Nat :=
  if action.Clears i then
    0
  else if action.Takes i ∧
      (estate.blocks i).length < ((estate.step S action).blocks i).length then
    demands + 1
  else
    demands

/-- How often the pool `i` grew on demand since its slabs were last given back, after a run. It had
done so already the given number of times before. -/
def demands (S : Supply α σ) (i : ι) : Estate T α σ → Nat → List (Action T α) → Nat
  | _, before, [] => before
  | estate, before, action :: actions =>
    (estate.step S action).demands S i (estate.demandsAfter S i before action) actions

theorem demands_concat (S : Supply α σ) (i : ι) (estate : Estate T α σ) (before : Nat)
    (actions : List (Action T α)) (action : Action T α) :
    estate.demands S i before (actions ++ [action]) =
      (estate.run S actions).demandsAfter S i (estate.demands S i before actions) action := by
  induction actions generalizing estate before with
  | nil => rfl
  | cons first actions ih => exact ih _ _

section

variable {S : Supply α σ} {i : ι} {estate : Estate T α σ} {action : Action T α} {before : Nat}

theorem demandsAfter_of_clears (h : action.Clears i) : estate.demandsAfter S i before action = 0 :=
  if_pos h

theorem demandsAfter_of_still (hclears : ¬ action.Clears i)
    (h : ((estate.step S action).blocks i).length ≤ (estate.blocks i).length) :
    estate.demandsAfter S i before action = before := by
  rw [demandsAfter, if_neg hclears, if_neg fun hgrown => Nat.not_lt.mpr h hgrown.2]

theorem demandsAfter_of_not_takes (hclears : ¬ action.Clears i) (htakes : ¬ action.Takes i) :
    estate.demandsAfter S i before action = before := by
  rw [demandsAfter, if_neg hclears, if_neg fun hgrown => htakes hgrown.1]

theorem demandsAfter_of_grown (hclears : ¬ action.Clears i) (htakes : action.Takes i)
    (h : (estate.blocks i).length < ((estate.step S action).blocks i).length) :
    estate.demandsAfter S i before action = before + 1 := by
  rw [demandsAfter, if_neg hclears, if_pos ⟨htakes, h⟩]

end

theorem Doubled.still {S : Supply α σ} {estate : Estate T α σ} {i : ι} {before : Nat}
    {action : Action T α} (h : estate.Doubled i before)
    (hsame : (estate.step S action).accounts i = estate.accounts i) :
    (estate.step S action).Doubled i (estate.demandsAfter S i before action) := by
  have hdoubled : ∀ demands, estate.Doubled i demands →
      (estate.step S action).Doubled i demands := by
    intro demands h
    rwa [Doubled, hsame]
  by_cases hclears : action.Clears i
  · rw [demandsAfter_of_clears hclears]
    exact hdoubled 0 h.restart
  · have hblocks : (estate.step S action).blocks i = estate.blocks i := by
      rw [blocks, blocks, hsame]
    rw [demandsAfter_of_still hclears (Nat.le_of_eq (congrArg List.length hblocks))]
    exact hdoubled before h

theorem Doubled.served {S : Supply α σ} {estate : Estate T α σ} {i : ι} {before : Nat}
    {account : Account (T i) α} {request : Request (T i) Nat} (h : account.Doubled before)
    (hsound : estate.Sound) (hcounted : account.PermitsCounted request)
    (hfound : estate.accounts i = some account)
    (hafter : (estate.step S (.use i request)).accounts i =
      some (account.serve S.recorded estate.world request).account) :
    (estate.step S (.use i request)).Doubled i
      (estate.demandsAfter S i before (.use i request)) := by
  obtain ⟨free, hfree⟩ := hsound i account hfound
  have hcounts := Account.serve_counted S hfree.holds hcounted
  have hheld := hcounts.held_le h.held_le
  have hbefore := length_blocks hfound
  have hlength := length_blocks hafter
  rw [doubled_of_some hafter]
  cases hcounts with
  | taken htakes hsupplied =>
      have hclears : ¬ (Action.use i request : Action T α).Clears i := by
        rintro ⟨-, rfl⟩
        cases htakes
      cases hsupplied with
      | reused item rest _ _ hslabs _ =>
          rw [demandsAfter_of_still hclears (by rw [hlength, hbefore, hslabs])]
          exact h.mono hheld (hslabs ▸ List.prefix_rfl)
      | grown slab hnone _ hslabs hcapacity _ =>
          have hlonger : (estate.blocks i).length <
              ((estate.step S (.use i request)).blocks i).length := by
            rw [hlength, hbefore, hslabs, List.length_append]
            exact Nat.lt_succ_self _
          rw [demandsAfter_of_grown hclears ⟨rfl, htakes⟩ hlonger]
          exact h.grow (hnone ▸ hfree) hheld hslabs hcapacity
      | refused _ _ hslabs _ =>
          rw [demandsAfter_of_still hclears (by rw [hlength, hbefore, hslabs])]
          exact h.mono hheld (hslabs ▸ List.prefix_rfl)
  | kept htakes hne hslabs _ _ =>
      have hclears : ¬ (Action.use i request : Action T α).Clears i := fun hclears => hne hclears.2
      have htakes : ¬ (Action.use i request : Action T α).Takes i := by simp [Action.Takes, htakes]
      rw [demandsAfter_of_not_takes hclears htakes]
      exact h.mono hheld hslabs
  | ended heq _ _ =>
      have hclears : (Action.use i request : Action T α).Clears i := ⟨rfl, heq⟩
      rw [demandsAfter_of_clears hclears]
      exact ⟨hheld, nofun⟩

theorem Doubled.step (S : Supply α σ) {estate : Estate T α σ} {i : ι} {before : Nat}
    (h : estate.Doubled i before) (hsound : estate.Sound) {action : Action T α}
    (hcounted : estate.PermitsCounted action) :
    (estate.step S action).Doubled i (estate.demandsAfter S i before action) := by
  cases estate.passed S i action with
  | still hsame => exact h.still hsame
  | opened plan pool haction hfound hmissing =>
      subst haction
      obtain rfl := (doubled_of_none hmissing).mp h
      rw [demandsAfter_of_not_takes id id, doubled_of_some hfound]
      exact ⟨Nat.zero_le _, nofun⟩
  | served account request haction hfound hafter =>
      subst haction
      exact Doubled.served ((doubled_of_some hfound).mp h) hsound (hcounted account hfound) hfound
        hafter
  | closed haction hnone =>
      subst haction
      have hclears : (Action.drop i : Action T α).Clears i := rfl
      rw [demandsAfter_of_clears hclears, doubled_of_none hnone]

/-- Where slots were acquired from an empty pool and nothing else was done with it, all is exact. -/
theorem exact_step (S : Supply α σ) {estate : Estate T α σ} (hsound : estate.Sound)
    {action : Action T α} (hcounted : estate.PermitsCounted action) {i : ι}
    (htakes : action.About i → action.Takes i) {account : Account (T i) α}
    (hfound : estate.accounts i = some account) (h : account.Exact) :
    ∃ after, (estate.step S action).accounts i = some after ∧ after.Exact := by
  cases estate.passed S i action with
  | still hsame => exact ⟨account, hsame.trans hfound, h⟩
  | opened plan pool haction _ hmissing => cases hmissing.symm.trans hfound
  | served own request haction hown hafter =>
      subst haction
      cases hfound.symm.trans hown
      obtain ⟨free, hfree⟩ := hsound i account hfound
      refine ⟨_, hafter, h.supplied hfree ?_⟩
      exact Account.supplied_of_takes S (htakes rfl).2 hfree.holds (hcounted account hfound)
  | closed haction _ =>
      subst haction
      exact (htakes rfl).elim

variable [Fintype ι] [DecidableEq α]

theorem doubled_of_run (S : Supply α σ) {memory : Memory} {state : σ} {actions : List (Action T α)}
    (hlawful : (start memory state).LawfulCounted S actions)
    (hhonest : Honest ((start memory state).run S actions).calls) (i : ι) :
    ((start memory state).run S actions).Doubled i
      ((start memory state).demands S i 0 actions) := by
  refine Sound.run_induction S (.start memory state) (.start memory state)
    (motive := fun actions => ((start memory state).run S actions).Doubled i
      ((start memory state).demands S i 0 actions)) ?_ ?_ hlawful hhonest
  · exact rfl
  · intro earlier action hsound hcounted h
    rw [run_append, demands_concat]
    exact h.step S hsound hcounted

theorem exact_of_run (S : Supply α σ) {estate : Estate T α σ} (hbalanced : estate.Balanced)
    (hsound : estate.Sound) {i : ι} {first : Account (T i) α}
    (hfirst : estate.accounts i = some first) (hempty : first.pool.index.slabs = [])
    (hacquired : first.pool.acquired = 0) {actions : List (Action T α)}
    (hlawful : estate.LawfulCounted S actions) (hhonest : Honest (estate.run S actions).calls)
    (htakes : ∀ action ∈ actions, action.About i → action.Takes i) :
    ∃ account, (estate.run S actions).accounts i = some account ∧ account.Exact := by
  refine hsound.run_induction S hbalanced
    (motive := fun actions => (∀ action ∈ actions, action.About i → action.Takes i) →
      ∃ account, (estate.run S actions).accounts i = some account ∧ account.Exact)
    ?_ ?_ hlawful hhonest htakes
  · intro _
    obtain ⟨free, hfree⟩ := hsound i first hfirst
    have hheld : first.held = [] := by
      have hcapacity := hfree.capacity_eq
      simp only [Pool.capacity, Pool.capacities, SlabIndex.capacities, hempty, List.map_nil,
        Word.total_nil] at hcapacity
      exact List.eq_nil_of_length_eq_zero (by omega)
    exact ⟨first, hfirst, .fresh hempty hacquired hheld⟩
  · intro earlier action hsound hcounted ih htakes
    rw [List.forall_mem_append, List.forall_mem_singleton] at htakes
    obtain ⟨account, hfound, hexact⟩ := ih htakes.1
    rw [run_append]
    exact exact_step S hsound hcounted htakes.2 hfound hexact

/-- At any point of a run in which clients keep their contract, acquisitions can be counted and
allocators are honest, for each pool:

* the items in use are no more than the acquisitions;
* a slab that is added on demand has as many slots as there were acquisitions, eight at least, and
  so no fewer than all other slabs have together;
* with each slab that was added on demand after the first, the capacity at least doubled;
* where items were acquired and nothing else was done since there were no slabs, the capacity is the
  least number of eight times a power of two that holds the items, and the sizes of the slabs are
  known. -/
theorem growth_doubles (S : Supply α σ) (memory : Memory) (state : σ)
    (actions : List (Action T α)) (hlawful : (start memory state).LawfulCounted S actions)
    (hhonest : Honest ((start memory state).run S actions).calls) (i : ι)
    (account : Account (T i) α)
    (hfound : ((start memory state).run S actions).accounts i = some account) :
    account.held.length ≤ account.pool.acquired ∧
    (∀ request, request.takes = true → account.PermitsCounted request →
      let served := account.serve S.recorded ((start memory state).run S actions).world request
      served.account.pool.index.slabs ≠ account.pool.index.slabs →
      ∃ slab, served.account.pool.index.slabs = account.pool.index.slabs ++ [slab] ∧
        slab.capacity.val = max 8 account.pool.acquired ∧
        account.pool.capacity ≤ slab.capacity.val ∧
        ∀ earlier ∈ account.pool.index.slabs, earlier.capacity.val ≤ slab.capacity.val) ∧
    account.pool.checkedCapacity = .ok account.pool.capacity ∧
    (∀ demands, (start memory state).demands S i 0 actions = demands + 1 →
      8 * 2 ^ demands ≤ account.pool.capacity) ∧
    ∀ earlier later, actions = earlier ++ later →
      (∀ action ∈ later, action.About i → action.Takes i) →
      ∀ first, ((start memory state).run S earlier).accounts i = some first →
        first.pool.index.slabs = [] → first.pool.acquired = 0 → 0 < account.held.length →
        IsLeast {size | account.held.length ≤ size ∧ ∃ number, size = 8 * 2 ^ number}
            account.pool.capacity ∧
          account.pool.capacities = (List.range account.pool.numSlabs).map slabSize := by
  have hbalanced : Balanced (start memory state : Estate T α σ) := .start memory state
  have hstart : Sound (start memory state : Estate T α σ) := .start memory state
  have hsound := hstart.run S hbalanced hlawful hhonest
  have hspread := (hbalanced.run S actions).spread hhonest hfound
  have hdoubled := (doubled_of_some hfound).mp (doubled_of_run S hlawful hhonest i)
  refine ⟨hdoubled.held_le, ?_, Pool.checkedCapacity_of_spread hspread, ?_, ?_⟩
  · intro request htakes hcounted served hgrown
    obtain ⟨free, hfree⟩ := hsound i account hfound
    have hsupplied := Account.supplied_of_takes S htakes hfree.holds hcounted
    obtain ⟨rfl, slab, hslabs, hcapacity⟩ := hsupplied.slab_eq hgrown
    have hlarge := hfree.capacity_le_nextGrowth hdoubled.held_le
    rw [← hcapacity] at hlarge
    refine ⟨slab, hslabs, ?_, hlarge, ?_⟩
    · rw [hcapacity]
      rfl
    · exact fun earlier hmem => (Account.capacity_le_of_mem hmem).trans hlarge
  · intro demands hdemands
    rw [hdemands] at hdoubled
    exact hdoubled.capacity_ge demands.succ_pos
  · rintro earlier later rfl htakes first hfirst hempty hacquired hpos
    obtain ⟨hearlier, hlater⟩ := lawfulBy_append.mp hlawful
    rw [run_append] at hhonest hfound
    have hbefore := hhonest.of_suffix (suffix_run S _ later)
    have hmiddle := hstart.run S hbalanced hearlier hbefore
    obtain ⟨last, hlast, hexact⟩ := exact_of_run S (hbalanced.run S earlier) hmiddle hfirst hempty
      hacquired hlater hhonest htakes
    cases hfound.symm.trans hlast
    exact hexact.capacity_isLeast hpos

/-- A pool is made without slots, and eight are asked for. -/
def eightAcquired : List (Action (fun _ : Bool => Kind.pair.itemType) Collaborator) :=
  .build true { allocator := {} } :: List.replicate 8 (.use true .acquire)

theorem growth_doubles_of_eightAcquired :
    let final := (start {} {}).run Host.supply eightAcquired
    ∃ account, final.accounts true = some account ∧ account.held.length = 8 ∧
      8 * 2 ^ 0 ≤ account.pool.capacity ∧ account.pool.capacities = [8] ∧
      ∃ slab,
        (account.serve Host.supply.recorded final.world .acquire).account.pool.index.slabs =
          account.pool.index.slabs ++ [slab] ∧
        slab.capacity.val = 8 := by
  have hfound : (((start {} {}).run Host.supply eightAcquired).accounts true).isSome := by
    decide +kernel
  have hnext : ∀ account ∈ ((start {} {}).run Host.supply eightAcquired).accounts true,
      account.PermitsCounted .acquire ∧
      (account.serve Host.supply.recorded ((start {} {}).run Host.supply eightAcquired).world
        .acquire).account.pool.index.slabs ≠ account.pool.index.slabs ∧
      account.held.length = 8 := by
    decide +kernel
  obtain ⟨hcounted, hgrown, hheld⟩ := hnext _ (Option.some_get hfound).symm
  have htakes : ∀ action ∈ eightAcquired.tail, action.About true → action.Takes true := by
    intro action hmem _
    rw [List.eq_of_mem_replicate hmem]
    exact ⟨rfl, rfl⟩
  obtain ⟨-, hslab, -, hdemands, hexact⟩ := growth_doubles Host.supply {} {} eightAcquired
    (by decide +kernel) (by decide +kernel) true _ (Option.some_get hfound).symm
  obtain ⟨slab, hslabs, hcapacity, -⟩ := hslab .acquire rfl hcounted hgrown
  obtain ⟨-, hcapacities⟩ := hexact [_] _ rfl htakes _ rfl rfl rfl (hheld ▸ by decide)
  refine ⟨_, (Option.some_get hfound).symm, hheld, hdemands 0 (by decide +kernel), ?_, slab,
    hslabs, ?_⟩
  · rw [hcapacities]
    rfl
  · rw [hcapacity]
    rfl

end Estate

end SlabPool
