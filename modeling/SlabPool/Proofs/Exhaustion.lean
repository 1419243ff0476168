import SlabPool.Host.Collaborator
import SlabPool.Proofs.Estate.Coverage
import SlabPool.Proofs.Faults
import SlabPool.Proofs.NoTrace
import SlabPool.Session.Kind

/-!
The one fault of a pool's own.

Where allocators keep their promise and raise no faults, and finalisers raise none, an action is
answered with a fault in one case only: a slot is asked for, there is one, and the count of
acquisitions is at the last word. That can happen, because slots that come back are counted again
when they are handed out.

All other places where a fault could be raised are closed by what holds in every run: the capacities
add up to a word because the slots lie apart in the address space, the links lead over slots and
end, the slabs have the layouts they were allocated with, and no allocator is asked for a block of
no bytes.

Main statement: `Estate.fault_only_when_exhausted`.
-/

namespace SlabPool

variable {ι α σ : Type}

/-! ### Blocks that are asked for -/

/-- The call is not for a block of no bytes. -/
def Call.Sized : Call α → Prop
  | allocate _ layout _ => 0 < layout.size
  | _ => True

theorem HandBack.sized {given : List (Loan α)} {before after : List (Call α)}
    {result : Except Fault Unit} (h : HandBack given before after result)
    (hbefore : ∀ call ∈ before, call.Sized) : ∀ call ∈ after, call.Sized := by
  have hback : ∀ loans : List (Loan α), ∀ call ∈ handedBack loans before, call.Sized := by
    intro loans call hcall
    rcases List.mem_append.mp hcall with hcall | hcall
    · obtain ⟨loan, -, rfl⟩ := List.mem_map.mp (List.mem_reverse.mp hcall)
      trivial
    · exact hbefore call hcall
  cases h with
  | all _ hcalls => exact hcalls ▸ hback given
  | halted earlier later loan fault _ _ hcalls =>
      rw [hcalls]
      exact List.forall_mem_cons.mpr ⟨trivial, hback earlier⟩

/-- The heap raises no fault when it is asked for a block of some bytes. -/
theorem Heap.allocate_ne_fault (heap : Heap) {layout : Layout} (h : 0 < layout.size)
    (fault : Fault) : (heap.allocate layout).1 ≠ .error (.fault fault) := by
  unfold Heap.allocate
  rw [if_neg h.ne']
  split
  · simp
  · dsimp only
    split
    · simp
    · simp

section

variable {T : ItemType}

theorem Slab.layout_size_pos {capacity : Capacity} {layout : Layout}
    (h : Slab.layout T capacity = .ok layout) : 0 < layout.size := by
  obtain ⟨-, rfl⟩ := Slab.layout_eq_ok_iff.mp h
  exact Nat.mul_pos T.size_pos capacity.property

theorem SlabIndex.sized_reserve (S : Supply α σ) {index : SlabIndex T} {record : Recorded α σ}
    (h : ∀ call ∈ record.calls, call.Sized) :
    ∀ call ∈ (index.reserve S.recorded record).2.calls, call.Sized := by
  simp only [SlabIndex.reserve]
  split
  · exact h
  · simp only [Supply.recorded]
    split
    · next hgranted =>
        simp only [Prod.mk.injEq] at hgranted
        rw [← hgranted.2]
        exact List.forall_mem_cons.mpr ⟨trivial, h⟩
    · next hrefused =>
        simp only [Prod.mk.injEq] at hrefused
        rw [← hrefused.2]
        exact List.forall_mem_cons.mpr ⟨trivial, h⟩

theorem Slab.sized_allocate (S : Supply α σ) {allocator : α} {capacity : Capacity}
    {record : Recorded α σ} (h : ∀ call ∈ record.calls, call.Sized) :
    ∀ call ∈ (Slab.allocate S.recorded allocator T capacity record).2.calls, call.Sized := by
  cases hlayout : Slab.layout T capacity with
  | error failure =>
      simp only [Slab.allocate, hlayout]
      exact h
  | ok layout =>
      obtain ⟨answer, after, hanswer, hcalls⟩ := Slab.allocate_of_layout S allocator hlayout record
      rw [hanswer, hcalls]
      exact List.forall_mem_cons.mpr ⟨Slab.layout_size_pos hlayout, h⟩

namespace Pool

variable {pool : Pool T α} {world : World (Recorded α σ)}

theorem sized_grow (S : Supply α σ) {capacity : Capacity}
    (h : ∀ call ∈ world.supply.calls, call.Sized) :
    ∀ call ∈ (pool.grow S.recorded capacity world).world.supply.calls, call.Sized := by
  have hroom : ∀ call ∈ (pool.index.reserve S.recorded world.supply).2.calls, call.Sized :=
    SlabIndex.sized_reserve S h
  rcases hreserve : pool.index.reserve S.recorded world.supply with ⟨_ | index, record⟩
  · rw [hreserve] at hroom
    simp only [grow, hreserve]
    exact hroom
  · rw [hreserve] at hroom
    rw [supply_grow S.recorded hreserve]
    exact Slab.sized_allocate S hroom

theorem sized_acquire (S : Supply α σ) (h : ∀ call ∈ world.supply.calls, call.Sized) :
    ∀ call ∈ (pool.acquire S.recorded world).world.supply.calls, call.Sized := by
  obtain ⟨-, -, hworld⟩ | ⟨-, -, hworld⟩ := pool.acquire_backing S.recorded world
  · rwa [hworld]
  · rw [hworld]
    exact sized_grow S h

theorem sized_destroy (S : Supply α σ) (hfits : ∀ slab ∈ pool.index.slabs, slab.Fits)
    (h : ∀ call ∈ world.supply.calls, call.Sized) :
    ∀ call ∈ (pool.destroy S.recorded world).world.supply.calls, call.Sized := by
  obtain ⟨result, -, hback⟩ := handBack_destroy S hfits world
  exact hback.sized h

end Pool

theorem Blueprint.sized_build (S : Supply α σ) {plan : Blueprint α} {world : World (Recorded α σ)}
    (h : ∀ call ∈ world.supply.calls, call.Sized) :
    ∀ call ∈ (plan.build S.recorded T world).world.supply.calls, call.Sized := by
  cases hinitial : plan.initial with
  | none =>
      simp only [Blueprint.build, hinitial]
      exact h
  | some capacity =>
      simp only [Blueprint.build, hinitial]
      exact Pool.sized_grow S h

theorem Account.sized_serve (S : Supply α σ) {account : Account T α}
    {world : World (Recorded α σ)} (hfits : ∀ slab ∈ account.pool.index.slabs, slab.Fits)
    (h : ∀ call ∈ world.supply.calls, call.Sized) (request : Request T Nat) :
    ∀ call ∈ (account.serve S.recorded world request).world.supply.calls, call.Sized := by
  cases request with
  | acquire => exact Pool.sized_acquire S h
  | insert value =>
      simp only [serve, handOut, (account.pool.insert_backing S.recorded value world).2]
      exact Pool.sized_acquire S h
  | release item => exact h
  | remove item =>
      simp only [serve, takeBack, (account.pool.remove_backing item world).2.2]
      exact h
  | grow capacity => exact Pool.sized_grow S h
  | check =>
      simp only [serve]
      split
      · exact h
      · exact h
  | destroy => exact Pool.sized_destroy S hfits h
  | read | write | scribble => exact h

/-! ### The count of acquisitions -/

theorem Pool.acquired_take_le {pool : Pool T α} (memory : Memory)
    (h : pool.acquired ≤ Word.max) : (pool.take memory).2.acquired ≤ Word.max := by
  unfold Pool.take
  split
  · exact h
  · split
    · exact h
    · next hadd =>
        have hlt := (Word.checkedAdd_eq_some_iff.mp hadd).2
        unfold Word.modulus at hlt
        unfold Word.max
        exact Nat.le_of_lt_succ hlt

theorem Pool.acquired_acquire_le (S : Supply α σ) {pool : Pool T α}
    (world : World (Recorded α σ)) (h : pool.acquired ≤ Word.max) :
    (pool.acquire S.recorded world).pool.acquired ≤ Word.max := by
  have hgrown : (pool.grow S.recorded pool.nextGrowth world).pool.acquired ≤ Word.max := by
    rwa [pool.acquired_grow]
  unfold Pool.acquire
  split
  · dsimp only
    split
    · exact hgrown
    · exact Pool.acquired_take_le _ hgrown
  · exact Pool.acquired_take_le _ h

theorem Account.acquired_serve_le (S : Supply α σ) {account : Account T α}
    (world : World (Recorded α σ)) (request : Request T Nat)
    (h : account.pool.acquired ≤ Word.max) :
    (account.serve S.recorded world request).account.pool.acquired ≤ Word.max := by
  cases htakes : request.takes with
  | true =>
      rw [account.serve_pool_of_takes S.recorded world htakes]
      exact Pool.acquired_acquire_le S world h
  | false =>
      by_cases hdestroy : request = .destroy
      · subst hdestroy
        simp only [serve, Pool.destroy]
        split
        · exact h
        · exact Nat.zero_le _
      · rwa [account.acquired_serve_of_not_takes S world htakes hdestroy]

theorem Blueprint.acquired_build (S : Supply α σ) {plan : Blueprint α}
    {world : World (Recorded α σ)} {pool : Pool T α}
    (h : (plan.build S.recorded T world).result = .ok pool) : pool.acquired = 0 := by
  obtain ⟨rfl, -⟩ | ⟨capacity, turn, hgrowth, rfl, -⟩ := (plan.build_built S world).of_ok h
  · rfl
  · cases hgrowth with
    | failed _ _ _ hpool _ _ => rw [hpool]
    | added _ _ _ _ _ _ _ _ hpool _ _ => rw [hpool]

end

variable {T : ι → ItemType}

namespace Estate

variable {estate : Estate T α σ}

/-! ### Runs -/

/-- What holds of every run, whatever clients do: no block of no bytes was asked for, and no count
is beyond the words. -/
structure Measured (estate : Estate T α σ) : Prop where
  sized : ∀ call ∈ estate.calls, call.Sized
  acquired_le : ∀ i account, estate.accounts i = some account → account.pool.acquired ≤ Word.max

theorem Measured.start (memory : Memory) (state : σ) :
    Measured (Estate.start memory state : Estate T α σ) where
  sized := by simp [Estate.start, Estate.calls]
  acquired_le := by
    intro i account h
    cases h

variable [DecidableEq ι]

theorem Measured.put (h : estate.Measured) {i : ι} {world : World (Recorded α σ)}
    {account : Option (Account (T i) α)} (hsized : ∀ call ∈ world.supply.calls, call.Sized)
    (hacquired : ∀ after, account = some after → after.pool.acquired ≤ Word.max) :
    (estate.put i world account).Measured where
  sized := hsized
  acquired_le := by
    intro j other hother
    by_cases hj : j = i
    · subst hj
      rw [accounts_put_self] at hother
      exact hacquired other hother
    · rw [accounts_put_of_ne _ _ _ _ hj] at hother
      exact h.acquired_le j other hother

variable [Fintype ι] [DecidableEq α]

theorem Measured.step (S : Supply α σ) (hbalanced : estate.Balanced) (h : estate.Measured)
    (action : Action T α) : (estate.step S action).Measured := by
  generalize hafter : estate.step S action = after
  have hstepped := hafter ▸ estate.stepped S action
  cases hstepped with
  | skipped => exact h
  | disturbed => exact ⟨h.sized, h.acquired_le⟩
  | built i plan reply pool _ hreply hresult =>
      refine h.put (hreply ▸ Blueprint.sized_build S h.sized) ?_
      rintro _ ⟨⟩
      exact (Blueprint.acquired_build S (hreply ▸ hresult)).trans_le (Nat.zero_le _)
  | unbuilt i plan reply stop _ hreply _ =>
      exact h.put (hreply ▸ Blueprint.sized_build S h.sized) nofun
  | served i account request served hfound hserved =>
      have hfits := hbalanced.fits i account hfound
      refine h.put (hserved ▸ account.sized_serve S hfits h.sized request) ?_
      rintro _ ⟨⟩
      exact hserved ▸ account.acquired_serve_le S estate.world request
        (h.acquired_le i account hfound)
  | dropped i account reply hfound hreply =>
      refine h.put ?_ nofun
      rw [← hreply, Pool.drop_eq]
      exact Pool.sized_destroy S (hbalanced.fits i account hfound) h.sized

theorem Measured.run (S : Supply α σ) (hbalanced : estate.Balanced) (h : estate.Measured)
    (actions : List (Action T α)) : (estate.run S actions).Measured := by
  induction actions generalizing estate with
  | nil => exact h
  | cons action actions ih => exact ih (hbalanced.step S action) (h.step S hbalanced action)

end Estate

/-! ### Pools that work -/

/-- Nothing inside the library keeps the pool from working: its capacity is a word, the check finds
nothing, it can be put into words, its slabs can be given back, the slots of any slab can be linked,
and growth yields a slot. -/
structure Account.Workable {T : ItemType} (S : Supply α σ) (account : Account T α)
    (world : World (Recorded α σ)) : Prop where
  capacity_eq : account.pool.checkedCapacity = .ok account.pool.capacity
  capacity_le : account.pool.capacity ≤ Word.max
  check_eq : account.pool.check world.memory = .ok ()
  describe_ok : ∀ text, ∃ record, account.pool.describe text = .ok record
  layout_eq : ∀ slab ∈ account.pool.index.slabs,
    Slab.layout T slab.capacity = .ok ⟨slab.bytes, T.align⟩
  push_ok : ∀ (slab : Slab T) (memory : Memory), ∃ pushed,
    account.pool.free.pushRow slab.first T.size slab.capacity.val memory = .ok pushed
  pop_some : ∀ capacity, (account.pool.grow S.recorded capacity world).result = .ok () →
    ∃ item free, (account.pool.grow S.recorded capacity world).pool.free.pop?
      (account.pool.grow S.recorded capacity world).world.memory = some (item, free)

theorem Pool.pop_of_grow {T : ItemType} (S : Supply α σ) {pool : Pool T α} {capacity : Capacity}
    {world : World (Recorded α σ)} (h : (pool.grow S.recorded capacity world).result = .ok ()) :
    ∃ item free, (pool.grow S.recorded capacity world).pool.free.pop?
      (pool.grow S.recorded capacity world).world.memory = some (item, free) := by
  cases pool.grow_growth S capacity world with
  | failed stop _ hresult _ _ _ =>
      rw [hresult] at h
      cases h
  | added slab _ free _ _ _ _ hlinked hpool _ _ =>
      rw [FreeList.pushRow_of_pos slab.capacity.property] at hlinked
      simp only [Except.ok.injEq, Prod.mk.injEq] at hlinked
      rw [hpool, ← hlinked.1]
      exact ⟨slab.first, _, rfl⟩

theorem Account.Covered.workable {T : ItemType} (S : Supply α σ) {account : Account T α}
    {world : World (Recorded α σ)} (h : account.Covered world.memory)
    (hfits : ∀ slab ∈ account.pool.index.slabs, slab.Fits)
    (hspread : account.pool.index.Spread) : account.Workable S world := by
  have hcapacity := Pool.checkedCapacity_of_spread hspread
  refine ⟨hcapacity, ?_, h.check_eq_ok hspread, ?_, ?_, ?_, fun _ => Pool.pop_of_grow S⟩
  · exact Nat.le_of_lt_succ (Pool.checkedCapacity_eq_ok_iff.mp hcapacity).2
  · intro text
    simp only [Pool.describe, hcapacity]
    exact ⟨_, rfl⟩
  · exact fun slab hslab => Slab.layout_eq_ok_iff.mpr ⟨hfits slab hslab, rfl⟩
  · exact fun slab _ => ⟨_, FreeList.pushRow_of_pos slab.capacity.property⟩

namespace Estate

/-- A slot of a pool is asked for, and there is one that cannot be counted. -/
def Exhausted (S : Supply α σ) (estate : Estate T α σ) : Action T α → Prop
  | .use i request =>
    ∃ account ∈ estate.accounts i, account.Exhausted S.recorded estate.world request
  | _ => False

variable {estate : Estate T α σ}

theorem told_of_exhausted (S : Supply α σ) {action : Action T α} (h : estate.Exhausted S action)
    {i : ι} {told : Told (T i)} (htold : estate.told S action = some ⟨i, told⟩) :
    told.result = .error (.fault .countExhausted) := by
  cases action with
  | build | drop | elsewhere => exact h.elim
  | use j request =>
      obtain ⟨account, hfound, hexhausted⟩ := h
      have hfound : estate.accounts j = some account := hfound
      simp only [Estate.told, hfound] at htold
      cases htold
      exact account.serve_of_exhausted S hexhausted

variable [DecidableEq ι] [Fintype ι] [DecidableEq α]

/-- A fault in the answer to an action is that of an allocator, that of a finaliser, or due to the
count. -/
theorem fault_of_told (S : Supply α σ) (hbalanced : estate.Balanced) (hmeasured : estate.Measured)
    (hworkable : ∀ i account, estate.accounts i = some account →
      account.Workable S estate.world)
    {action : Action T α} {i : ι} {told : Told (T i)}
    (htold : estate.told S action = some ⟨i, told⟩) {fault : Fault}
    (hfault : told.result = .error (.fault fault)) :
    Raised estate.calls (estate.step S action).calls fault ∨
      (fault = .countExhausted ∧ estate.Exhausted S action) ∨
      ∃ discarded ∈ told.destroyed, ∃ message,
        (T i).finalise discarded = some message ∧ fault = .raised message := by
  cases action with
  | build j plan =>
      cases hfound : estate.accounts j with
      | some account => simp [Estate.told, hfound] at htold
      | none =>
          simp only [Estate.told, hfound] at htold
          cases htold
          simp only [Estate.step, hfound, calls_put]
          exact .inl (Blueprint.raised_of_build S (error_of_map hfault))
  | use j request =>
      cases hfound : estate.accounts j with
      | none => simp [Estate.told, hfound] at htold
      | some account =>
          simp only [Estate.told, hfound] at htold
          cases htold
          simp only [Estate.step, hfound, calls_put]
          obtain hraised | ⟨hcount, hexhausted⟩ | hdiscarded :=
            account.fault_of_serve S (hbalanced.fits i account hfound)
              (hmeasured.acquired_le i account hfound) (hworkable i account hfound).check_eq hfault
          · exact .inl hraised
          · exact .inr (.inl ⟨hcount, account, hfound, hexhausted⟩)
          · exact .inr (.inr hdiscarded)
  | drop j =>
      cases hfound : estate.accounts j with
      | none => simp [Estate.told, hfound] at htold
      | some account =>
          simp only [Estate.told, hfound] at htold
          cases htold
          simp only [Estate.step, hfound, calls_put, Pool.drop_eq] at hfault ⊢
          exact .inl (Pool.raised_of_destroy S (hbalanced.fits i account hfound)
            (error_of_map hfault))
  | elsewhere => cases htold

/-- At any point of a run in which clients keep their contract and allocators are honest, every
account is such that nothing in its pool can go wrong, and no block of no bytes was ever asked for.
An action is answered with a fault only if that is the fault of an allocator, or of the end of a
value, or if a slot is there and the count of acquisitions is at the last word; and in that case it
always is. -/
theorem fault_only_when_exhausted (S : Supply α σ) (memory : Memory) (state : σ)
    (actions : List (Action T α)) (hlawful : (start memory state).Lawful S actions)
    (hhonest : Honest ((start memory state).run S actions).calls) :
    let estate := (start memory state).run S actions
    (∀ i account, estate.accounts i = some account → account.Workable S estate.world) ∧
    (∀ allocator layout answer, .allocate allocator layout answer ∈ estate.calls →
      0 < layout.size ∧
        ∀ (heap : Heap) (fault : Fault), (heap.allocate layout).1 ≠ .error (.fault fault)) ∧
    ∀ (action : Action T α) (i : ι) (told : Told (T i)),
      estate.told S action = some ⟨i, told⟩ →
      (∀ fault, told.result = .error (.fault fault) →
        Raised estate.calls (estate.step S action).calls fault ∨
          (fault = .countExhausted ∧ estate.Exhausted S action) ∨
          ∃ discarded ∈ told.destroyed, ∃ message,
            (T i).finalise discarded = some message ∧ fault = .raised message) ∧
      ((∀ fault, ¬ Raised estate.calls (estate.step S action).calls fault) →
        (∀ discarded ∈ told.destroyed, (T i).finalise discarded = none) →
        ((∃ fault, told.result = .error (.fault fault)) ↔ estate.Exhausted S action)) := by
  intro estate
  have hstart : Balanced (start memory state : Estate T α σ) := .start memory state
  have hbalanced : estate.Balanced := hstart.run S actions
  have hmeasured : estate.Measured := Measured.run S hstart (.start memory state) actions
  have hcovered : estate.Covered := Covered.run S hstart (.start memory state) hlawful hhonest
  have hworkable : ∀ i account, estate.accounts i = some account →
      account.Workable S estate.world := by
    intro i account hfound
    exact (hcovered i account hfound).workable S (hbalanced.fits i account hfound)
      (hbalanced.spread hhonest hfound)
  refine ⟨hworkable, ?_, ?_⟩
  · intro allocator layout answer hcall
    have hsized : 0 < layout.size := hmeasured.sized _ hcall
    exact ⟨hsized, fun heap fault => heap.allocate_ne_fault hsized fault⟩
  · intro action i told htold
    have hfault : ∀ fault, told.result = .error (.fault fault) → _ :=
      fun fault => fault_of_told S hbalanced hmeasured hworkable htold
    refine ⟨hfault, fun hcalm hfinalise => ⟨?_, ?_⟩⟩
    · -- with all others silent, the fault can only be due to the count
      rintro ⟨fault, hresult⟩
      obtain hraised | ⟨-, hexhausted⟩ | ⟨discarded, hmem, message, hmessage, -⟩ :=
        hfault fault hresult
      · exact absurd hraised (hcalm fault)
      · exact hexhausted
      · rw [hfinalise discarded hmem] at hmessage
        cases hmessage
    · exact fun hexhausted => ⟨_, told_of_exhausted S hexhausted htold⟩

/-- A pool of one slot grows for want of a second one, and its first slot comes back. -/
def grownOnce : List (Action (fun _ : Bool => Kind.pair.itemType) Collaborator) :=
  [.build true { allocator := {}, initial := some 1 },
    .use true .acquire,
    .use true .acquire,
    .use true (.release 4096)]

theorem no_fault_after_grownOnce :
    let estate := (start {} {}).run Host.supply grownOnce
    ∃ account, estate.accounts true = some account ∧
      account.pool.capacity = 9 ∧ account.pool.check estate.world.memory = .ok () ∧
      ∃ told, estate.told Host.supply (.use true .destroy) = some ⟨true, told⟩ ∧
        ¬ ∃ fault, told.result = .error (.fault fault) := by
  have hfound : (((start {} {}).run Host.supply grownOnce).accounts true).isSome := by
    decide +kernel
  obtain ⟨hworkable, -, htold⟩ := fault_only_when_exhausted Host.supply {} {} grownOnce
    (by decide +kernel) (by decide +kernel)
  have hcapacity : ∀ account ∈ ((start {} {}).run Host.supply grownOnce).accounts true,
      account.pool.capacity = 9 := by
    decide +kernel
  have hcalm : Calm (((start {} {}).run Host.supply grownOnce).step Host.supply
      (.use true .destroy)).calls := by
    decide +kernel
  have haccount := (Option.some_get hfound).symm
  refine ⟨_, haccount, hcapacity _ haccount, (hworkable true _ haccount).check_eq, _, rfl, ?_⟩
  rw [(htold (.use true .destroy) true _ rfl).2 hcalm.not_raised fun _ _ => rfl]
  rintro ⟨account, -, htakes, -⟩
  cases htakes

end Estate

end SlabPool
