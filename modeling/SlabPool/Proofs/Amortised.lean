import SlabPool.Host.Collaborator
import SlabPool.Proofs.Doubling
import SlabPool.Proofs.Estate.Coverage
import SlabPool.Proofs.FailedGrowth
import SlabPool.Session.Kind

/-!
The cost of growth.

The size of a slab that is added on demand follows the count of acquisitions, which never goes down
while slots come and go. What keeps the pool from outgrowing that count is that a slab is added only
when every slot is in use: the slots there are then cannot be more than the acquisitions there were,
and the slab doubles that at most. So a pool that grows on demand alone has at most its first
slots, or twice as many as there were acquisitions before the last one, or seven more than
acquisitions; and of all its slots at most eight for each acquisition were ever put on the free list
by growth.

Nothing is said of how many acquisitions there can be. Where they cannot be counted any more, a pool
has not the means to grow either.

Main statement: `Estate.capacity_amortised`.
-/

namespace SlabPool

variable {ι α σ : Type}

/-- The number of slots of a pool that was made by the blueprint. -/
def Blueprint.initialSlots (plan : Blueprint α) : Nat :=
  match plan.initial with
  | none => 0
  | some capacity => capacity.val

section

variable {T : ItemType}

theorem Pool.capacity_congr {pool after : Pool T α} (h : after.index.slabs = pool.index.slabs) :
    after.capacity = pool.capacity := by
  rw [Pool.capacity, Pool.capacity, Pool.capacities, Pool.capacities, SlabIndex.capacities,
    SlabIndex.capacities, h]

theorem Blueprint.capacity_of_build (S : Supply α σ) {plan : Blueprint α}
    {world : World (Recorded α σ)} {pool : Pool T α}
    (h : (plan.build S.recorded T world).result = .ok pool) :
    pool.capacity = plan.initialSlots := by
  cases hinitial : plan.initial with
  | none =>
      simp only [Blueprint.build, hinitial, Except.ok.injEq] at h
      rw [← h, Blueprint.initialSlots, hinitial]
      rfl
  | some capacity =>
      have hgrowth := Pool.grow_growth (T := T) S { allocator := plan.allocator } capacity world
      simp only [Blueprint.build, hinitial] at h
      cases hgrowth with
      | failed stop reserved hresult _ _ _ =>
          rw [hresult] at h
          cases h
      | added slab reserved free calls hresult hcapacity _ _ hpool _ _ =>
          rw [hresult] at h
          cases h
          rw [hpool, Blueprint.initialSlots, hinitial, ← hcapacity]
          rfl

/-! ### Acquisitions, counted or not -/

/-- What an acquisition does to the size of a pool. -/
inductive Pool.Resized (pool after : Pool T α) : Prop
  | same (slabs_eq : after.index.slabs = pool.index.slabs)
      (acquired_le : pool.acquired ≤ after.acquired)
  | grown (slab : Slab T)
      (head_eq : pool.free.head = none)
      (slabs_eq : after.index.slabs = pool.index.slabs ++ [slab])
      (capacity_eq : slab.capacity = pool.nextGrowth)
      (acquired_eq : after.acquired = pool.acquired + 1)

theorem Pool.acquire_resized (S : Supply α σ) (pool : Pool T α) (world : World (Recorded α σ)) :
    pool.Resized (pool.acquire S.recorded world).pool := by
  by_cases hcount : pool.acquired < Word.max
  · cases pool.acquire_acquisition S world hcount with
    | reused item _ _ hslabs hacquired =>
        exact .same hslabs (hacquired ▸ Nat.le_succ _)
    | grown slab hhead _ _ hslabs hcapacity hacquired =>
        exact .grown slab hhead hslabs hcapacity hacquired
    | refused reason stop _ _ _ hslabs hacquired =>
        exact .same hslabs (Nat.le_of_eq hacquired.symm)
  · have hspent : Word.max ≤ pool.acquired := Nat.not_lt.mp hcount
    cases hhead : pool.free.head with
    | some item =>
        rw [Pool.acquire_of_spent S.recorded hhead hspent]
        exact .same rfl (Nat.le_refl _)
    | none =>
        obtain ⟨stop, hstop⟩ := Pool.error_of_spent S hspent world
        obtain ⟨-, room, -, hpool⟩ := Pool.grow_of_error S hstop
        rw [Pool.acquire_of_failed S.recorded hhead hstop, hpool]
        exact .same rfl (Nat.le_refl _)

namespace Account

variable {account : Account T α}

/-- A request that asks for nothing and gives nothing back leaves the size of the pool alone. -/
theorem serve_size (S : Supply α σ) {world : World (Recorded α σ)} {request : Request T Nat}
    (htakes : request.takes = false) (hdestroy : request ≠ .destroy)
    (hfails : ∀ capacity, request = .grow capacity →
      account.FailsToGrow S.recorded world request) :
    let after := (account.serve S.recorded world request).account
    after.pool.index.slabs = account.pool.index.slabs ∧
      after.pool.acquired = account.pool.acquired := by
  refine ⟨?_, account.acquired_serve_of_not_takes S world htakes hdestroy⟩
  cases request with
  | acquire | insert => cases htakes
  | release item => exact congrArg (·.index.slabs) (account.takeBack_pool item _)
  | remove item =>
      rw [serve, takeBack_pool]
      exact congrArg (·.slabs) (account.pool.remove_backing item world).1
  | grow capacity =>
      obtain ⟨-, -, room, -, haccount⟩ := serve_of_failsToGrow S (hfails capacity rfl)
      rw [haccount]
      rfl
  | check =>
      simp only [serve]
      split
      · rfl
      · rfl
  | destroy => exact absurd rfl hdestroy
  | read | write | scribble => rfl

/-- Where no slot is free, there are no more slots than there were acquisitions. -/
theorem Covered.capacity_le {memory : Memory} (h : account.Covered memory)
    (hhead : account.pool.free.head = none) : account.pool.capacity ≤ account.pool.acquired := by
  obtain ⟨larger, free, hwithin, hsound, hheld⟩ := h
  have hcapacity := hsound.capacity_eq
  rw [← hwithin.pool_eq] at hhead ⊢
  rw [hsound.holds.eq_nil hhead, List.length_nil] at hcapacity
  omega

/-! ### The bound -/

/-- Of the slots of the pool, so many were put on the free list by growth on demand, and the others
are there because the pool was made with them. -/
structure Amortised (account : Account T α) (initial linked : Nat) : Prop where
  capacity_eq : account.pool.capacity = linked ∨ account.pool.capacity = initial + linked
  bounded : linked = 0 ∨ 0 < account.pool.acquired ∧
    account.pool.capacity ≤ max (2 * (account.pool.acquired - 1)) (account.pool.acquired + 7)

namespace Amortised

variable {initial linked : Nat}

theorem mono {after : Account T α} (h : account.Amortised initial linked)
    (hslabs : after.pool.index.slabs = account.pool.index.slabs)
    (hacquired : account.pool.acquired ≤ after.pool.acquired) :
    after.Amortised initial linked := by
  have hcapacity : after.pool.capacity = account.pool.capacity := Pool.capacity_congr hslabs
  refine ⟨hcapacity ▸ h.capacity_eq, ?_⟩
  obtain hzero | ⟨hpos, hle⟩ := h.bounded
  · exact .inl hzero
  · exact .inr (by omega)

/-- One slab more, when all slots were in use. -/
theorem grow {after : Account T α} {slab : Slab T} (h : account.Amortised initial linked)
    (hfull : account.pool.capacity ≤ account.pool.acquired)
    (hslabs : after.pool.index.slabs = account.pool.index.slabs ++ [slab])
    (hcapacity : slab.capacity = account.pool.nextGrowth)
    (hacquired : after.pool.acquired = account.pool.acquired + 1) :
    after.Amortised initial (linked + (after.pool.capacity - account.pool.capacity)) := by
  have hsize : slab.capacity.val = max 8 account.pool.acquired := by
    rw [hcapacity]
    rfl
  have hgrown : after.pool.capacity = account.pool.capacity + slab.capacity.val :=
    Pool.capacity_append hslabs
  refine ⟨?_, .inr ?_⟩
  · have hequal := h.capacity_eq
    omega
  · omega

theorem capacity_le (h : account.Amortised initial linked) :
    (account.pool.acquired = 0 → account.pool.capacity = 0 ∨ account.pool.capacity = initial) ∧
      (1 ≤ account.pool.acquired → account.pool.capacity ≤
        max initial (max (2 * (account.pool.acquired - 1)) (account.pool.acquired + 7))) := by
  obtain ⟨hequal, hbounded⟩ := h
  constructor
  · omega
  · omega

theorem linked_le (h : account.Amortised initial linked) : linked ≤ 8 * account.pool.acquired := by
  obtain ⟨hequal, hbounded⟩ := h
  omega

theorem restart {after : Account T α} (hslabs : after.pool.index.slabs = []) :
    after.Amortised initial 0 := by
  refine ⟨.inl ?_, .inl rfl⟩
  rw [Pool.capacity, Pool.capacities, SlabIndex.capacities, hslabs]
  rfl

theorem take (S : Supply α σ) {world : World (Recorded α σ)} {request : Request T Nat}
    (h : account.Amortised initial linked) (hcovered : account.Covered world.memory)
    (htakes : request.takes = true) :
    let after := (account.serve S.recorded world request).account
    after.Amortised initial (linked + (after.pool.capacity - account.pool.capacity)) := by
  intro after
  have hresized : account.pool.Resized after.pool := by
    rw [serve_pool_of_takes S.recorded account world htakes]
    exact account.pool.acquire_resized S world
  cases hresized with
  | same hslabs hacquired =>
      have hcapacity : after.pool.capacity = account.pool.capacity := Pool.capacity_congr hslabs
      rw [hcapacity, Nat.sub_self, Nat.add_zero]
      exact h.mono hslabs hacquired
  | grown slab hhead hslabs hcapacity hacquired =>
      exact h.grow (hcovered.capacity_le hhead) hslabs hcapacity hacquired

end Amortised

end Account

end

/-! ### Runs -/

namespace Estate

variable {T : ι → ItemType}

theorem length_slots {estate : Estate T α σ} {i : ι} {account : Account (T i) α}
    (h : estate.accounts i = some account) :
    (estate.slots i).length = account.pool.capacity := by
  rw [slots_of_some h, Pool.length_slots]

variable [DecidableEq ι]

/-- The pool `i` is not dropped, and grows because slots are needed only: a request to add a slab to
it fails. -/
def SparesGrowth (S : Supply α σ) (i : ι) (estate : Estate T α σ) : Action T α → Prop
  | .build _ _ | .elsewhere _ _ => True
  | .use j request => j = i → ∀ capacity, request = .grow capacity →
      ∀ account ∈ estate.accounts j, account.FailsToGrow S.recorded estate.world request
  | .drop j => j ≠ i

/-- The pool `i` stays through a whole run, and grows because slots are needed only. -/
def GrowsOnDemand (S : Supply α σ) (i : ι) : Estate T α σ → List (Action T α) → Prop
  | _, [] => True
  | estate, action :: actions =>
    estate.SparesGrowth S i action ∧ (estate.step S action).GrowsOnDemand S i actions

/-- How many slots growth on demand has put on the free list of the pool `i` since its slabs were
last given back, after one more action. -/
def linkedAfter (S : Supply α σ) (i : ι) (estate : Estate T α σ) (linked : Nat)
    (action : Action T α) : Nat :=
  if action.Clears i then
    0
  else if action.Takes i then
    linked + (((estate.step S action).slots i).length - (estate.slots i).length)
  else
    linked

/-- How many slots growth on demand has put on the free list of the pool `i` since its slabs were
last given back, after a run. There were the given number of them already before. -/
def linked (S : Supply α σ) (i : ι) : Estate T α σ → Nat → List (Action T α) → Nat
  | _, before, [] => before
  | estate, before, action :: actions =>
    (estate.step S action).linked S i (estate.linkedAfter S i before action) actions

section

variable {S : Supply α σ} {i : ι} {estate : Estate T α σ} {action : Action T α} {before : Nat}

theorem linkedAfter_of_clears (h : action.Clears i) : estate.linkedAfter S i before action = 0 :=
  if_pos h

theorem linkedAfter_of_takes (hclears : ¬ action.Clears i) (htakes : action.Takes i) :
    estate.linkedAfter S i before action =
      before + (((estate.step S action).slots i).length - (estate.slots i).length) := by
  rw [linkedAfter, if_neg hclears, if_pos htakes]

theorem linkedAfter_of_neither (hclears : ¬ action.Clears i) (htakes : ¬ action.Takes i) :
    estate.linkedAfter S i before action = before := by
  rw [linkedAfter, if_neg hclears, if_neg htakes]

end

section

variable {S : Supply α σ} {estate : Estate T α σ} {i : ι} {account : Account (T i) α}
  {initial before : Nat}

theorem amortised_served (hcovered : account.Covered estate.world.memory)
    (h : account.Amortised initial before) (hfound : estate.accounts i = some account)
    {request : Request (T i) Nat} (hspares : estate.SparesGrowth S i (.use i request))
    (hafter : (estate.step S (.use i request)).accounts i =
      some (account.serve S.recorded estate.world request).account) :
    (account.serve S.recorded estate.world request).account.Amortised initial
      (estate.linkedAfter S i before (.use i request)) := by
  by_cases hdestroy : request = .destroy
  · subst hdestroy
    have hclears : (Action.use i .destroy : Action T α).Clears i := ⟨rfl, rfl⟩
    rw [linkedAfter_of_clears hclears]
    apply Account.Amortised.restart
    simp only [Account.serve, Pool.destroy]
    split
    · rfl
    · rfl
  · have hclears : ¬ (Action.use i request : Action T α).Clears i :=
      fun hclears => hdestroy hclears.2
    cases htakes : request.takes with
    | true =>
        rw [linkedAfter_of_takes hclears ⟨rfl, htakes⟩, length_slots hfound, length_slots hafter]
        exact h.take S hcovered htakes
    | false =>
        have hneither : ¬ (Action.use i request : Action T α).Takes i := by
          simp [Action.Takes, htakes]
        obtain ⟨hslabs, hacquired⟩ := Account.serve_size S htakes hdestroy
          fun capacity hgrow => hspares rfl capacity hgrow account hfound
        rw [linkedAfter_of_neither hclears hneither]
        exact h.mono hslabs (Nat.le_of_eq hacquired.symm)

theorem amortised_step (hcovered : estate.Covered) (h : account.Amortised initial before)
    (hfound : estate.accounts i = some account) {action : Action T α}
    (hspares : estate.SparesGrowth S i action) :
    ∃ after, (estate.step S action).accounts i = some after ∧
      after.Amortised initial (estate.linkedAfter S i before action) := by
  cases action with
  | build j plan =>
      rw [linkedAfter_of_neither id id]
      refine ⟨account, ?_, h⟩
      by_cases hj : j = i
      · subst hj
        simp only [step, hfound]
      · cases hother : estate.accounts j with
        | none => simp only [step, hother, accounts_put_of_ne _ _ _ _ (Ne.symm hj), hfound]
        | some other => simp only [step, hother, hfound]
  | use j request =>
      by_cases hj : j = i
      · subst hj
        have hafter := accounts_step_use S hfound request
        exact ⟨_, hafter, amortised_served (hcovered j account hfound) h hfound hspares hafter⟩
      · have hclears : ¬ (Action.use j request : Action T α).Clears i := fun h => hj h.1
        have htakes : ¬ (Action.use j request : Action T α).Takes i := fun h => hj h.1
        rw [linkedAfter_of_neither hclears htakes]
        refine ⟨account, ?_, h⟩
        cases hother : estate.accounts j with
        | none => simp only [step, hother, hfound]
        | some other => simp only [step, hother, accounts_put_of_ne _ _ _ _ (Ne.symm hj), hfound]
  | drop j =>
      have hj : j ≠ i := hspares
      have hclears : ¬ (Action.drop j : Action T α).Clears i := hj
      rw [linkedAfter_of_neither hclears id]
      refine ⟨account, ?_, h⟩
      cases hother : estate.accounts j with
      | none => simp only [step, hother, hfound]
      | some other => simp only [step, hother, accounts_put_of_ne _ _ _ _ (Ne.symm hj), hfound]
  | elsewhere address word =>
      rw [linkedAfter_of_neither id id]
      exact ⟨account, hfound, h⟩

/-- A pool is made with its first slots, or without any. -/
theorem amortised_made (estate : Estate T α σ) {plan : Blueprint α}
    (hmissing : estate.accounts i = none)
    (hmade : (estate.step S (.build i plan)).accounts i ≠ none) :
    ∃ first, (estate.step S (.build i plan)).accounts i = some first ∧
      first.Amortised plan.initialSlots 0 := by
  cases hresult : (plan.build S.recorded (T i) estate.world).result with
  | error stop =>
      simp only [step, hmissing, hresult, accounts_put_self] at hmade
      exact absurd rfl hmade
  | ok pool =>
      refine ⟨{ pool }, ?_, .inr ?_, .inl rfl⟩
      · simp only [step, hmissing, hresult, accounts_put_self]
        rfl
      · rw [Nat.add_zero]
        exact Blueprint.capacity_of_build S hresult

variable [Fintype ι] [DecidableEq α]

theorem amortised_run (hbalanced : estate.Balanced) (hcovered : estate.Covered)
    (h : account.Amortised initial before) (hfound : estate.accounts i = some account)
    {actions : List (Action T α)} (hlawful : estate.Lawful S actions)
    (hhonest : Honest (estate.run S actions).calls) (hdemand : estate.GrowsOnDemand S i actions) :
    ∃ after, (estate.run S actions).accounts i = some after ∧
      after.Amortised initial (estate.linked S i before actions) := by
  induction actions generalizing estate account before with
  | nil => exact ⟨account, hfound, h⟩
  | cons action actions ih =>
      have hfirst := hhonest.of_suffix (suffix_run S _ actions)
      obtain ⟨middle, hmiddle, hnow⟩ := amortised_step hcovered h hfound hdemand.1
      exact ih (hbalanced.step S action) (hcovered.step S hbalanced hlawful.1 hfirst) hnow hmiddle
        hlawful.2 hhonest hdemand.2

/-- After a pool was made in a run, let it grow on demand alone, with failures among the attempts.
Its capacity is at most the largest of three numbers: the slots it was made with, twice the
acquisitions before the last one, and seven more than the acquisitions. All slots that growth ever
put on its free list are at most eight for each acquisition. -/
theorem capacity_amortised (S : Supply α σ) (memory : Memory) (state : σ) (i : ι)
    (plan : Blueprint α) (earlier later : List (Action T α))
    (hlawful : (start memory state).Lawful S (earlier ++ .build i plan :: later))
    (hhonest : Honest ((start memory state).run S (earlier ++ .build i plan :: later)).calls)
    (hmissing : ((start memory state).run S earlier).accounts i = none)
    (hmade : ((start memory state).run S (earlier ++ [.build i plan])).accounts i ≠ none)
    (hdemand : ((start memory state).run S (earlier ++ [.build i plan])).GrowsOnDemand S i
      later) :
    let made := (start memory state).run S (earlier ++ [.build i plan])
    ∃ account, (made.run S later).accounts i = some account ∧
      account.pool.checkedCapacity = .ok account.pool.capacity ∧
      (account.pool.acquired = 0 →
        account.pool.capacity = 0 ∨ account.pool.capacity = plan.initialSlots) ∧
      (1 ≤ account.pool.acquired → account.pool.capacity ≤
        max plan.initialSlots (max (2 * (account.pool.acquired - 1)) (account.pool.acquired + 7))) ∧
      (account.pool.capacity = made.linked S i 0 later ∨
        account.pool.capacity = plan.initialSlots + made.linked S i 0 later) ∧
      made.linked S i 0 later ≤ 8 * account.pool.acquired := by
  intro made
  have hbalanced : Balanced (start memory state : Estate T α σ) := .start memory state
  have hcovered : Covered (start memory state : Estate T α σ) := .start memory state
  have hmiddle : made.Balanced := hbalanced.run S _
  rw [List.append_cons] at hlawful
  obtain ⟨hbuilt, hlater⟩ := lawfulBy_append.mp hlawful
  rw [List.append_cons, run_append] at hhonest
  have hbefore : Honest made.calls := hhonest.of_suffix (suffix_run S made later)
  have hmade' : ∃ first, made.accounts i = some first ∧ first.Amortised plan.initialSlots 0 := by
    rw [run_append] at hmade
    show ∃ first, ((start memory state).run S (earlier ++ [.build i plan])).accounts i = _ ∧ _
    rw [run_append]
    exact amortised_made _ hmissing hmade
  obtain ⟨first, hfirst, hamortised⟩ := hmade'
  obtain ⟨account, hfound, hafter⟩ := amortised_run hmiddle
    (hcovered.run S hbalanced hbuilt hbefore) hamortised hfirst hlater hhonest hdemand
  have hspread := (hmiddle.run S later).spread hhonest hfound
  exact ⟨account, hfound, Pool.checkedCapacity_of_spread hspread, hafter.capacity_le.1,
    hafter.capacity_le.2, hafter.capacity_eq, hafter.linked_le⟩

/-- A pool of two slots cannot be given a slab that is too large, and three slots are acquired. -/
def thirdAcquired : List (Action (fun _ : Bool => Kind.pair.itemType) Collaborator) :=
  [.use true (.grow 1152921504606846976), .use true .acquire,
    .use true (.insert (Kind.pair.fit [6, 7])), .use true .acquire]

theorem capacity_amortised_of_thirdAcquired :
    let made := (start {} {}).run Host.supply
      [Action.build true { allocator := {}, initial := some 2 }]
    ∃ account, (made.run Host.supply thirdAcquired).accounts true = some account ∧
      account.pool.acquired = 3 ∧ account.pool.capacity = 10 ∧
      account.pool.capacity ≤ max 2 (max (2 * (account.pool.acquired - 1))
        (account.pool.acquired + 7)) ∧
      made.linked Host.supply true 0 thirdAcquired ≤ 8 * account.pool.acquired := by
  intro made
  have hdemand : made.GrowsOnDemand Host.supply true thirdAcquired := by
    refine ⟨?_, nofun, nofun, nofun, trivial⟩
    rintro - capacity ⟨⟩ account ⟨⟩
    exact ⟨_, rfl, _, rfl⟩
  have hcounts : ∀ account ∈ (made.run Host.supply thirdAcquired).accounts true,
      account.pool.acquired = 3 ∧ account.pool.capacity = 10 := by
    decide +kernel
  obtain ⟨account, hfound, -, -, hbound, -, hlinked⟩ := capacity_amortised Host.supply {} {} true
    { allocator := {}, initial := some 2 } [] thirdAcquired (by decide +kernel)
    (by decide +kernel) rfl (by decide +kernel) hdemand
  obtain ⟨hacquired, hcapacity⟩ := hcounts account hfound
  exact ⟨account, hfound, hacquired, hcapacity, hbound (by omega), hlinked⟩

end

end Estate

end SlabPool
