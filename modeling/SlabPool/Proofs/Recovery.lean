import SlabPool.Host.Collaborator
import SlabPool.Proofs.Amortised
import SlabPool.Proofs.Chronicle
import SlabPool.Proofs.Estate.Lost
import SlabPool.Proofs.Exhaustion

/-!
After a fault in the middle of giving slabs back.

An allocator that raises a fault when a block is handed back leaves the pool half way through its
slabs. The blocks before that one are handed back and those after it are not; the steps that would
have made the pool as good as new are skipped, and only the forgetting of the free slots and of the
slabs came early enough. That is enough. The pool owns no block any more, so it can hand none back
again and has no slot to hand out, and its count stays, which does no more than set the size of the
next slab.

Nothing is assumed of the pool before: its clients may have spoilt it. For what comes after, the
other pools have to be in order, and clients to keep their contract from then on.

Main statement: `Estate.halted_release_is_final`.
-/

namespace SlabPool

variable {ι α σ : Type}

section

variable {T : ItemType}

/-- An acquisition that leaves a pool without slabs was refused, and is not counted. -/
theorem Pool.acquired_acquire_of_empty (S : Supply α σ) {pool : Pool T α}
    {world : World (Recorded α σ)} (hhead : pool.free.head = none)
    (hempty : (pool.acquire S.recorded world).pool.index.slabs = []) :
    (pool.acquire S.recorded world).pool.acquired = pool.acquired := by
  rw [Pool.index_acquire_of_none S.recorded hhead] at hempty
  cases pool.grow_growth S pool.nextGrowth world with
  | failed stop _ hresult _ _ _ =>
      rw [Pool.acquire_of_failed S.recorded hhead hresult]
      exact pool.acquired_grow S pool.nextGrowth world
  | added slab _ _ _ _ _ _ _ hpool _ _ =>
      rw [hpool] at hempty
      exact absurd hempty (by simp)

namespace Account

variable {account : Account T α}

/-- A pool without slabs and without items is in order. -/
theorem covered_of_empty (memory : Memory) (hslabs : account.pool.index.slabs = [])
    (hhead : account.pool.free.head = none) (hheld : account.held = []) :
    account.Covered memory := by
  have hslots : account.pool.index.slots = [] := by rw [SlabIndex.slots, hslabs, List.flatMap_nil]
  refine ⟨account, [], .refl _, ⟨hhead, ?_, ?_⟩, ?_⟩
  · rw [hheld, hslots]
    exact .refl _
  · simp [hheld]
  · rw [hheld]
    exact Nat.zero_le _

theorem Covered.head_eq_none {memory : Memory} (h : account.Covered memory)
    (hslabs : account.pool.index.slabs = []) : account.pool.free.head = none := by
  obtain ⟨larger, free, hwithin, hsound, -⟩ := h
  rw [← hwithin.pool_eq] at hslabs ⊢
  have hperm := hsound.perm
  rw [SlabIndex.slots, hslabs, List.flatMap_nil, List.perm_nil, List.append_eq_nil_iff] at hperm
  have hholds := hsound.holds
  rw [hperm.1] at hholds
  exact hholds

/-! ### The count that is kept -/

/-- The count is not lower than what was kept, and still the same while there is no slab. -/
structure Keeping (account : Account T α) (kept : Nat) : Prop where
  le : kept ≤ account.pool.acquired
  eq_of_empty : account.pool.index.slabs = [] → account.pool.acquired = kept

theorem Keeping.serve (S : Supply α σ) {world : World (Recorded α σ)} {kept : Nat}
    (h : account.Keeping kept) (hcovered : account.Covered world.memory)
    (hfits : ∀ slab ∈ account.pool.index.slabs, slab.Fits) {request : Request T Nat}
    (hdestroy : request ≠ .destroy) :
    (account.serve S.recorded world request).account.Keeping kept := by
  cases htakes : request.takes with
  | false =>
      have hacquired := account.acquired_serve_of_not_takes S world htakes hdestroy
      have hgrow := (account.serve_turnover S hfits world request).slabs_grow hdestroy
      refine ⟨hacquired ▸ h.le, ?_⟩
      intro hempty
      rw [hempty] at hgrow
      rw [hacquired]
      exact h.eq_of_empty (List.prefix_nil.mp hgrow)
  | true =>
      have hpool := account.serve_pool_of_takes S.recorded world htakes
      refine ⟨?_, ?_⟩
      · rw [hpool]
        cases account.pool.acquire_resized S world with
        | same _ hle => exact h.le.trans hle
        | grown _ _ _ _ hacquired => exact hacquired ▸ h.le.trans (Nat.le_succ _)
      · rw [hpool]
        intro hempty
        have hslabs := account.pool.slabs_acquire S world
        rw [hempty] at hslabs
        have hnone : account.pool.index.slabs = [] := List.prefix_nil.mp hslabs
        rw [Pool.acquired_acquire_of_empty S (hcovered.head_eq_none hnone) hempty]
        exact h.eq_of_empty hnone

/-- The first slab after all were given back is sized by the count that was kept. -/
theorem Keeping.next_capacity (S : Supply α σ) {world : World (Recorded α σ)} {kept : Nat}
    (h : account.Keeping kept) (hempty : account.pool.index.slabs = [])
    {request : Request T Nat} (htakes : request.takes = true) :
    let served := account.serve S.recorded world request
    served.account.pool.index.slabs = [] ∨
      ∃ slab, served.account.pool.index.slabs = [slab] ∧ slab.capacity.val = max 8 kept := by
  intro served
  have hpool := account.serve_pool_of_takes S.recorded world htakes
  simp only [served, hpool]
  cases account.pool.acquire_resized S world with
  | same hslabs _ => exact .inl (hslabs.trans hempty)
  | grown slab _ hslabs hcapacity _ =>
      refine .inr ⟨slab, by rw [hslabs, hempty, List.nil_append], ?_⟩
      rw [hcapacity, ← h.eq_of_empty hempty]
      rfl

end Account

end

variable {T : ι → ItemType}

namespace Estate

variable [DecidableEq ι] {estate : Estate T α σ}

/-! ### The end of all slabs, completed or not -/

/-- What giving back all slabs of the pool `i` comes to. -/
structure Cleared (S : Supply α σ) (estate : Estate T α σ) (action : Action T α) (i : ι)
    (result : Except Fault Unit) : Prop where
  told : ∃ told, estate.told S action = some ⟨i, told⟩ ∧
    told.result = (result.mapError .fault).map fun () => .done
  handBack : HandBack (estate.blocks i) estate.calls (estate.step S action).calls result
  memory_eq : (estate.step S action).world.memory = estate.world.memory
  others : ∀ j, j ≠ i → (estate.step S action).accounts j = estate.accounts j
  emptied : ∀ after, (estate.step S action).accounts i = some after →
    after.pool.index.slabs = [] ∧ after.pool.free.head = none ∧ after.held = []
  kept : ∀ fault, result = .error fault → ∀ account, estate.accounts i = some account →
    ∀ after, (estate.step S action).accounts i = some after →
      after.pool.acquired = account.pool.acquired

theorem cleared (S : Supply α σ) {action : Action T α} {i : ι} (hclears : action.Clears i)
    {account : Account (T i) α} (hfound : estate.accounts i = some account)
    (hfits : ∀ slab ∈ account.pool.index.slabs, slab.Fits) :
    ∃ result, estate.Cleared S action i result := by
  obtain ⟨result, hresult, hback⟩ := Pool.handBack_destroy S hfits estate.world
  have hmemory := account.pool.memory_destroy S.recorded estate.world
  obtain ⟨hslabs, hhead⟩ := account.pool.emptied_destroy S.recorded estate.world
  refine ⟨result, ?_⟩
  cases action with
  | build | elsewhere => exact hclears.elim
  | use j request =>
      obtain ⟨rfl, rfl⟩ := hclears
      refine ⟨⟨_, by simp only [Estate.told, hfound]; rfl, ?_⟩, ?_, ?_, ?_, ?_, ?_⟩
      · simp only [Account.serve, hresult]
      · rw [blocks_of_some hfound]
        simp only [step, hfound, calls_put]
        exact hback
      · simp only [step, hfound, world_put]
        exact hmemory
      · intro k hk
        simp only [step, hfound, accounts_put_of_ne _ _ _ _ hk]
      · intro after hafter
        simp only [step, hfound, accounts_put_self] at hafter
        cases hafter
        exact ⟨hslabs, hhead, rfl⟩
      · rintro fault rfl own hown after hafter
        cases hfound.symm.trans hown
        simp only [step, hfound, accounts_put_self] at hafter
        cases hafter
        simp only [Account.serve, Pool.destroy_of_error S.recorded hresult, Pool.withoutSlabs]
  | drop j =>
      obtain rfl : j = i := hclears
      refine ⟨⟨_, by simp only [Estate.told, hfound]; rfl, ?_⟩, ?_, ?_, ?_, ?_, ?_⟩
      · simp only [Pool.drop_eq, hresult]
      · rw [blocks_of_some hfound]
        simp only [step, hfound, calls_put, Pool.drop_eq]
        exact hback
      · simp only [step, hfound, world_put, Pool.drop_eq]
        exact hmemory
      · intro k hk
        simp only [step, hfound, accounts_put_of_ne _ _ _ _ hk]
      · intro after hafter
        simp only [step, hfound, accounts_put_self] at hafter
        cases hafter
      · intro fault _ own _ after hafter
        simp only [step, hfound, accounts_put_self] at hafter
        cases hafter

namespace Cleared

variable {S : Supply α σ} {action : Action T α} {i : ι} {result : Except Fault Unit}

theorem blocks_eq (h : estate.Cleared S action i result) :
    (estate.step S action).blocks i = [] := by
  cases hafter : (estate.step S action).accounts i with
  | none => exact blocks_of_none hafter
  | some after =>
      rw [blocks_of_some hafter, Account.loans_eq_map, (h.emptied after hafter).1, List.map_nil]

/-- If the other pools were in order, all are, whatever the state of the pool itself was. -/
theorem covered (h : estate.Cleared S action i result)
    (hothers : ∀ j, j ≠ i → ∀ other, estate.accounts j = some other →
      other.Covered estate.world.memory) : (estate.step S action).Covered := by
  intro j after hafter
  by_cases hj : j = i
  · subst hj
    obtain ⟨hslabs, hhead, hheld⟩ := h.emptied after hafter
    exact Account.covered_of_empty _ hslabs hhead hheld
  · rw [h.others j hj] at hafter
    rw [h.memory_eq]
    exact hothers j hj after hafter

/-- A fault on record is the one that ended it, and the last call. -/
theorem halted (h : estate.Cleared S action i result) {new : List (Call α)}
    (hnew : (estate.step S action).calls = new ++ estate.calls) {loan : Loan α} {fault : Fault}
    (hraised : .release loan (.error fault) ∈ new) :
    ∃ earlier later, estate.blocks i = earlier ++ loan :: later ∧
      (estate.step S action).calls =
        .release loan (.error fault) :: handedBack earlier estate.calls ∧
      result = .error fault := by
  have hquiet : ∀ given : List (Loan α), ∀ call ∈
      (given.map fun loan => Call.release loan (.ok ())).reverse,
      call ≠ .release loan (.error fault) := by
    intro given call hcall
    obtain ⟨other, -, rfl⟩ := List.mem_map.mp (List.mem_reverse.mp hcall)
    simp
  cases h.handBack with
  | all _ hcalls =>
      obtain rfl := List.append_cancel_right (hnew.symm.trans hcalls)
      exact absurd rfl (hquiet _ _ hraised)
  | halted earlier later last raised hresult hgiven hcalls =>
      have hsplit : new = .release last (.error raised) ::
          (earlier.map fun loan => Call.release loan (.ok ())).reverse :=
        List.append_cancel_right (hnew.symm.trans hcalls)
      rw [hsplit] at hraised
      rcases List.mem_cons.mp hraised with hlast | hcall
      · cases hlast
        exact ⟨earlier, later, hgiven, hcalls, hresult⟩
      · exact absurd rfl (hquiet _ _ hcall)

variable [Fintype ι] [DecidableEq α] {earlier later : List (Loan α)} {loan : Loan α}
  {fault : Fault}

/-- The blocks after the one for which a fault was raised are lost. -/
theorem lost (h : estate.Cleared S action i result) (hbalanced : estate.Balanced)
    (hgiven : estate.blocks i = earlier ++ loan :: later)
    (hcalls : (estate.step S action).calls =
      .release loan (.error fault) :: handedBack earlier estate.calls) :
    (estate.step S action).Lost later := by
  obtain ⟨before, hbalance, -⟩ := hbalanced.balance
  rw [Fintype.sum_eq_add_sum_compl i, add_assoc, hgiven] at hbalance
  rw [Lost, hcalls, HandBack.loans_of_halted hbalance, sum_blocks_eq h.others, h.blocks_eq,
    Multiset.coe_nil, zero_add, add_comm, ← add_assoc]
  exact Multiset.le_add_right _ _

/-- Of the blocks there were, none is handed back more often than it is lent from then on. -/
theorem count_returned_le (h : estate.Cleared S action i result) (hbalanced : estate.Balanced)
    (hhonest : Honest estate.calls) (hgiven : estate.blocks i = earlier ++ loan :: later)
    (hcalls : (estate.step S action).calls =
      .release loan (.error fault) :: handedBack earlier estate.calls)
    {actions : List (Action T α)} {new : List (Call α)}
    (hnew : ((estate.step S action).run S actions).calls = new ++ (estate.step S action).calls)
    {old : Loan α} (hold : old ∈ estate.blocks i) :
    (returned new).count old ≤ (SlabPool.lent new).count old := by
  have hafter := hbalanced.step S action
  have hfinal := hafter.run S actions
  -- before, each of the blocks was on loan once, or it would be apart from itself
  have honce : (loans estate.calls).count old ≤ 1 := by
    by_contra hmore
    have hpair : old ::ₘ {old} ≤ loans estate.calls :=
      Multiset.le_count_iff_replicate_le.mp (Nat.not_le.mp hmore)
    exact Balanced.not_apart_self hold (hhonest.apart hpair)
  obtain ⟨rest, hrest⟩ := Multiset.le_iff_exists_add.mp (hbalanced.blocks_le i)
  have hown : 0 < (estate.blocks i).count old := List.count_pos_iff.mpr hold
  -- so those still on loan are lost, and they stay on loan
  have hhalted : (loans (estate.step S action).calls).count old = later.count old := by
    have hbefore := congrArg (Multiset.count old) hrest
    rw [Multiset.count_add, Multiset.coe_count] at hbefore
    rw [hgiven] at hrest
    rw [hcalls, HandBack.loans_of_halted hrest, Multiset.count_add, Multiset.coe_count]
    omega
  have hstay : later.count old ≤
      (loans ((estate.step S action).run S actions).calls).count old := by
    have hlost := (h.lost hbalanced hgiven hcalls).run S hafter actions
    rw [← Multiset.coe_count]
    exact Multiset.count_le_of_le old ((Multiset.le_add_left _ _).trans hlost)
  have hfaithful := hfinal.faithful
  rw [hnew] at hfaithful hstay
  have hcount := congrArg (Multiset.count old) (hafter.faithful.lent_add_loans hfaithful)
  rw [Multiset.count_add, Multiset.count_add, Multiset.coe_count, Multiset.coe_count] at hcount
  omega

end Cleared

/-! ### What comes after -/

variable [Fintype ι] [DecidableEq α]

/-- Until its slabs are given back again, the pool keeps its count. -/
theorem keeping_run (S : Supply α σ) (hbalanced : estate.Balanced) (hcovered : estate.Covered)
    {i : ι} {kept : Nat} {account : Account (T i) α} (hfound : estate.accounts i = some account)
    (h : account.Keeping kept) {later : List (Action T α)} (hlawful : estate.Lawful S later)
    (hhonest : Honest (estate.run S later).calls)
    (hclears : ∀ action ∈ later, ¬ action.Clears i) :
    ∃ after, (estate.run S later).accounts i = some after ∧ after.Keeping kept := by
  induction later generalizing estate account with
  | nil => exact ⟨account, hfound, h⟩
  | cons action later ih =>
      rw [List.forall_mem_cons] at hclears
      have hfirst := hhonest.of_suffix (suffix_run S (estate.step S action) later)
      have hnext : ∃ after, (estate.step S action).accounts i = some after ∧
          after.Keeping kept := by
        cases estate.passed S i action with
        | still hsame => exact ⟨account, hsame.trans hfound, h⟩
        | opened plan pool _ _ hmissing => cases hmissing.symm.trans hfound
        | served own request haction hown hafter =>
            cases hfound.symm.trans hown
            refine ⟨_, hafter, h.serve S (hcovered i account hfound)
              (hbalanced.fits i account hfound) ?_⟩
            intro hdestroy
            exact hclears.1 (haction ▸ ⟨rfl, hdestroy⟩)
        | closed haction _ => exact absurd rfl (haction ▸ hclears.1)
      obtain ⟨after, hafter, hkeeping⟩ := hnext
      exact ih (hbalanced.step S action) (hcovered.step S hbalanced hlawful.1 hfirst) hafter
        hkeeping hlawful.2 hhonest hclears.2

end Estate

/-- The pool is in order, and all it has was lent in the calls since some point of the record. -/
structure Account.Renewed {T : ItemType} (account : Account T α) (memory : Memory)
    (new : List (Call α)) : Prop where
  check_eq : account.pool.check memory = .ok ()
  held_apart : account.held.Pairwise T.Apart
  loans_subset : account.loans ⊆ lent new
  held_within : ∀ item ∈ account.held, ∃ loan ∈ lent new,
    loan.block ≤ item ∧ item + T.size ≤ loan.block + loan.layout.size

theorem Account.Covered.renewed {T : ItemType} {account : Account T α} {memory : Memory}
    (h : account.Covered memory) (hspread : account.pool.index.Spread) {new : List (Call α)}
    (hloans : account.loans ⊆ lent new) : account.Renewed memory new where
  check_eq := h.check_eq_ok hspread
  held_apart := h.held_apart hspread
  loans_subset := hloans
  held_within := by
    intro item hitem
    obtain ⟨slab, hslab, hmem⟩ := SlabIndex.mem_slots.mp (h.mem_slots hitem)
    have hloan : slab.loan account.pool.allocator ∈ account.loans := List.mem_map_of_mem hslab
    exact ⟨_, hloans hloan, Slab.bounds_of_mem_slots hmem⟩

namespace Estate

variable [DecidableEq ι] [DecidableEq α]

/-- Whatever is done from here on, with honest allocators: no call is about a byte of the blocks in
`lost`, and of the blocks in `old` none is handed back that is not lent again. -/
def Forgets (S : Supply α σ) (estate : Estate T α σ) (old lost : List (Loan α)) : Prop :=
  ∀ actions, Honest (estate.run S actions).calls →
    ∀ new, (estate.run S actions).calls = new ++ estate.calls →
      (∀ gone ∈ lost, gone ∉ returned new ∧
        ∀ moved ∈ lent new ++ returned new, moved.Apart gone) ∧
      ∀ block ∈ old, (returned new).count block ≤ (lent new).count block

omit [DecidableEq α] in
/-- Whatever is done from here on, by clients that keep their contract and with honest allocators:
the pool `i` is in order and has nothing of before, and until its slabs are given back again, the
next slab it gets is sized by the count that was kept. -/
def Recovers (S : Supply α σ) (estate : Estate T α σ) (i : ι) (kept : Nat) : Prop :=
  ∀ actions, estate.Lawful S actions → Honest (estate.run S actions).calls →
    (∀ new, (estate.run S actions).calls = new ++ estate.calls →
      ∀ renewed, (estate.run S actions).accounts i = some renewed →
        renewed.Renewed (estate.run S actions).world.memory new) ∧
    ((∀ action ∈ actions, ¬ action.Clears i) → (estate.accounts i).isSome = true →
      ∃ renewed, (estate.run S actions).accounts i = some renewed ∧
        kept ≤ renewed.pool.acquired ∧
        (renewed.pool.index.slabs = [] → ∀ request, request.takes = true →
          let served := renewed.serve S.recorded (estate.run S actions).world request
          served.account.pool.index.slabs = [] ∨
            ∃ slab, served.account.pool.index.slabs = [slab] ∧ slab.capacity.val = max 8 kept))

namespace Cleared

variable [Fintype ι] {S : Supply α σ} {estate : Estate T α σ} {action : Action T α} {i : ι}

theorem forgets {result : Except Fault Unit} (h : estate.Cleared S action i result)
    (hbalanced : estate.Balanced) (hhonest : Honest estate.calls) {earlier later : List (Loan α)}
    {loan : Loan α} {fault : Fault} (hgiven : estate.blocks i = earlier ++ loan :: later)
    (hcalls : (estate.step S action).calls =
      .release loan (.error fault) :: handedBack earlier estate.calls) :
    (estate.step S action).Forgets S (estate.blocks i) later := by
  intro actions hrun new hnew
  have hapart := (h.lost hbalanced hgiven hcalls).apart_run S (hbalanced.step S action) hnew hrun
  refine ⟨?_, fun block hblock => h.count_returned_le hbalanced hhonest hgiven hcalls hnew hblock⟩
  intro gone hgone
  refine ⟨?_, fun moved hmoved => hapart moved hmoved gone hgone⟩
  intro hreturned
  have hmem : gone ∈ estate.blocks i := by simp [hgiven, hgone]
  exact Balanced.not_apart_self hmem (hapart gone (List.mem_append_right _ hreturned) gone hgone)

theorem recovers {fault : Fault} (h : estate.Cleared S action i (.error fault))
    (hbalanced : estate.Balanced) {account : Account (T i) α}
    (hfound : estate.accounts i = some account)
    (hothers : ∀ j, j ≠ i → ∀ other, estate.accounts j = some other →
      other.Covered estate.world.memory) :
    (estate.step S action).Recovers S i account.pool.acquired := by
  intro actions hlawful hhonest
  have hafter := hbalanced.step S action
  have hcovered := h.covered hothers
  refine ⟨?_, ?_⟩
  · intro new hnew renewed hrenewed
    have hnone : (estate.step S action).blocks i ⊆ lent ([] : List (Call α)) := by
      rw [h.blocks_eq]
      exact List.nil_subset _
    obtain ⟨latest, hlatest, hblocks⟩ :=
      hafter.blocks_run_subset S (List.nil_append _).symm hnone actions
    obtain rfl := List.append_cancel_right (hnew.symm.trans hlatest)
    rw [blocks_of_some hrenewed] at hblocks
    have hrenewed' := hcovered.run S hafter hlawful hhonest i renewed hrenewed
    exact hrenewed'.renewed ((hafter.run S actions).spread hhonest hrenewed) hblocks
  · intro hclears hsome
    obtain ⟨halted, hhalted⟩ := Option.isSome_iff_exists.mp hsome
    have hacquired := h.kept fault rfl account hfound halted hhalted
    obtain ⟨renewed, hrenewed, hkeeping⟩ := keeping_run S hafter hcovered hhalted
      ⟨Nat.le_of_eq hacquired.symm, fun _ => hacquired⟩ hlawful hhonest hclears
    refine ⟨renewed, hrenewed, hkeeping.le, ?_⟩
    intro hempty request htakes served
    exact hkeeping.next_capacity S hempty htakes

end Cleared

variable [Fintype ι]

/-- Let an allocator raise a fault when a block of a pool is handed back, because the pool is
destroyed or dropped at some point of any run. The fault is what the action is answered with. The
blocks before that one are handed back in order, and those after it never are, whatever is done
later. A pool that was destroyed is still there, with no slab, no free slot and the count it had. If
the accounts of the other pools are in order, it can be used like any pool from then on. -/
theorem halted_release_is_final (S : Supply α σ) (memory : Memory) (state : σ)
    (actions : List (Action T α)) (action : Action T α) (i : ι) (hclears : action.Clears i)
    (account : Account (T i) α)
    (hfound : ((start memory state).run S actions).accounts i = some account)
    (new : List (Call α)) (loan : Loan α) (fault : Fault)
    (hnew : (((start memory state).run S actions).step S action).calls =
      new ++ ((start memory state).run S actions).calls)
    (hraised : .release loan (.error fault) ∈ new)
    (hhonest : Honest (((start memory state).run S actions).step S action).calls) :
    let before := (start memory state).run S actions
    let after := before.step S action
    (∃ told, before.told S action = some ⟨i, told⟩ ∧ told.result = .error (.fault fault)) ∧
    (∃ earlier later, before.blocks i = earlier ++ loan :: later ∧
      after.calls = .release loan (.error fault) :: handedBack earlier before.calls ∧
      after.Forgets S (before.blocks i) later) ∧
    (action = .use i .destroy → (after.accounts i).isSome = true) ∧
    (∀ halted, after.accounts i = some halted → halted.pool.index.slabs = [] ∧
      halted.pool.free.head = none ∧ halted.pool.acquired = account.pool.acquired) ∧
    ((∀ j, j ≠ i → ∀ other, before.accounts j = some other →
        other.Covered before.world.memory) →
      after.Recovers S i account.pool.acquired) := by
  intro before after
  have hstart : Balanced (start memory state : Estate T α σ) := .start memory state
  have hbalanced : before.Balanced := hstart.run S actions
  have hbefore : Honest before.calls := hhonest.of_suffix (before.suffix_step S action)
  obtain ⟨result, h⟩ := before.cleared S hclears hfound (hbalanced.fits i account hfound)
  obtain ⟨earlier, later, hgiven, hcalls, rfl⟩ := h.halted hnew hraised
  refine ⟨h.told, ⟨earlier, later, hgiven, hcalls, h.forgets hbalanced hbefore hgiven hcalls⟩, ?_,
    ?_, h.recovers hbalanced hfound⟩
  · rintro rfl
    have hown : before.accounts i = some account := hfound
    simp only [after, step, hown, accounts_put_self, Option.isSome_some]
  · intro halted hhalted
    obtain ⟨hslabs, hhead, -⟩ := h.emptied halted hhalted
    exact ⟨hslabs, hhead, h.kept fault rfl account hfound halted hhalted⟩

deriving instance DecidableEq for Call

/-- A pool of three slabs of one slot each. -/
def threeSlabs : List (Action (fun _ : Bool => Kind.pair.itemType) Collaborator) :=
  [.build true { allocator := { provider := .recorder 0 }, initial := some 1 },
    .use true .acquire,
    .use true (.grow 1),
    .use true (.grow 1)]

/-- A host whose recording allocator raises a fault for the second block that comes back. -/
def faultyHost : Host :=
  Host.setLedger {} 0 { settings := { faultOnReturn := some 1 } }

/-- The block that is lost when the pool of three slabs is destroyed. -/
def lostBlock : Loan Collaborator :=
  ⟨{ provider := .recorder 0 }, 4128, ⟨16, 8⟩⟩

theorem halted_release_of_threeSlabs :
    let before := (start {} faultyHost).run Host.supply threeSlabs
    let after := before.step Host.supply (.use true .destroy)
    let final := after.run Host.supply [.use true .acquire, .use true .destroy, .use true .acquire]
    lostBlock ∈ before.blocks true ∧
      lostBlock ∉ returned (final.calls.take (final.calls.length - after.calls.length)) ∧
      ∃ renewed, final.accounts true = some renewed ∧ renewed.held.length = 1 ∧
        renewed.pool.check final.world.memory = .ok () := by
  intro before after final
  have hfound : (before.accounts true).isSome := by decide +kernel
  have hfound' : (final.accounts true).isSome := by decide +kernel
  have hheld : ∀ account ∈ final.accounts true, account.held.length = 1 := by decide +kernel
  have hblocks : before.blocks true =
      [⟨{ provider := .recorder 0 }, 4096, ⟨16, 8⟩⟩,
        ⟨{ provider := .recorder 0 }, 4112, ⟨16, 8⟩⟩, lostBlock] := by
    decide +kernel
  have hnewer : final.calls =
      final.calls.take (final.calls.length - after.calls.length) ++ after.calls := by
    decide +kernel
  have hfinal : Honest final.calls := by decide +kernel
  obtain ⟨-, ⟨earlier, later, hgiven, -, hforgets⟩, -, -, hrecovers⟩ :=
    halted_release_is_final Host.supply {} faultyHost threeSlabs (.use true .destroy) true
      ⟨rfl, rfl⟩ _ (Option.some_get hfound).symm (after.calls.take 2)
      ⟨{ provider := .recorder 0 }, 4112, ⟨16, 8⟩⟩
      (.raised "collaborator panicked while releasing block 1") (by decide +kernel)
      (by decide +kernel) (by decide +kernel)
  have hlost : lostBlock ∈ later := by
    have hsplit := hblocks.symm.trans hgiven
    rcases earlier with _ | ⟨first, _ | ⟨second, _ | ⟨third, rest⟩⟩⟩
    · exact absurd (List.cons.inj hsplit).1 (by decide)
    · obtain ⟨-, rfl⟩ : _ = first ∧ [lostBlock] = later := by simpa using hsplit
      exact List.mem_singleton_self _
    · simp [lostBlock] at hsplit
    · simp at hsplit
  have hothers : ∀ j, j ≠ true → ∀ other, before.accounts j = some other →
      other.Covered before.world.memory := by
    intro j hj other hother
    cases j with
    | true => exact absurd rfl hj
    | false => cases hother
  have haccount := (Option.some_get hfound').symm
  obtain ⟨hrenewed, -⟩ := hrecovers hothers _ (by decide +kernel) hfinal
  refine ⟨hblocks ▸ by simp, ((hforgets _ hfinal _ hnewer).1 _ hlost).1, _, haccount,
    hheld _ haccount, (hrenewed _ hnewer _ haccount).check_eq⟩

end Estate

end SlabPool
