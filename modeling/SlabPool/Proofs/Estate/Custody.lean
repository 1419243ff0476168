import SlabPool.Proofs.Account.Custody
import SlabPool.Proofs.Estate.Balance

/-!
Custody of items in an estate.

An action writes into slots of one pool at most, if the contract is kept. What the allocators
promise is needed in two places: the slots of that pool do not overlap one another, and they do not
overlap those of any other pool, because the blocks of both are on loan at the same time.

So a property of an account that depends on memory only as far as the slots of its pool go has to be
proved for requests to that pool alone. `Estate.Invariant` says what is to be proved of it, and
`Estate.Invariant.run` that it lasts then through every run in which allocators are honest.
Soundness is such a property (`Estate.Sound.run`).
-/

namespace SlabPool.Estate

variable {ι α σ : Type} {T : ι → ItemType}

def slots (estate : Estate T α σ) (i : ι) : List Nat :=
  match estate.accounts i with
  | none => []
  | some account => account.pool.index.slots

theorem slots_of_some {estate : Estate T α σ} {i : ι} {account : Account (T i) α}
    (h : estate.accounts i = some account) : estate.slots i = account.pool.index.slots := by
  simp [slots, h]

variable [Fintype ι] [DecidableEq ι] [DecidableEq α] {estate : Estate T α σ}

/-! ### Different pools -/

/-- Slots of different pools have no byte in common. -/
theorem Balanced.not_covers (h : estate.Balanced) (hhonest : Honest estate.calls) {i j : ι}
    (hne : i ≠ j) {item other address : Nat} (hitem : item ∈ estate.slots i)
    (hother : other ∈ estate.slots j) (hcovers : (T i).Covers item address) :
    ¬ (T j).Covers other address := by
  cases hi : estate.accounts i with
  | none => simp [slots, hi] at hitem
  | some account =>
      cases hj : estate.accounts j with
      | none => simp [slots, hj] at hother
      | some second =>
          rw [slots_of_some hi, SlabIndex.mem_slots] at hitem
          rw [slots_of_some hj, SlabIndex.mem_slots] at hother
          obtain ⟨slab, hslab, hitem⟩ := hitem
          obtain ⟨next, hnext, hother⟩ := hother
          have hloan : slab.loan account.pool.allocator ∈ estate.blocks i := by
            rw [blocks_of_some hi]
            exact List.mem_map_of_mem hslab
          have hloan' : next.loan second.pool.allocator ∈ estate.blocks j := by
            rw [blocks_of_some hj]
            exact List.mem_map_of_mem hnext
          -- both blocks are on loan at once, whichever allocators lent them
          have hapart := hhonest.apart (h.pair_le hne hloan hloan')
          have hbounds := Slab.bounds_of_mem_slots hitem
          have hbounds' := Slab.bounds_of_mem_slots hother
          simp only [Loan.Apart, Slab.loan] at hapart
          rintro ⟨hlow, hhigh⟩
          obtain ⟨hlow', hhigh'⟩ := hcovers
          omega

/-- What is written into slots of one pool leaves the items of the others alone. -/
theorem Balanced.keeps_put {i j : ι} {world : World (Recorded α σ)}
    {account : Option (Account (T i) α)} (h : (estate.put i world account).Balanced)
    (hhonest : Honest world.supply.calls)
    (hwrites : (T i).WritesOnly ((estate.put i world account).slots i) estate.world.memory
      world.memory)
    (hne : j ≠ i) {item : Nat} (hitem : item ∈ estate.slots j) :
    (T j).Keeps item estate.world.memory world.memory := by
  have hsame : (estate.put i world account).slots j = estate.slots j := by
    rw [slots, slots, accounts_put_of_ne _ _ _ _ hne]
  rw [← hsame] at hitem
  intro address hcovers
  apply hwrites address
  intro written hwritten
  exact h.not_covers hhonest hne hitem hwritten hcovers

omit [DecidableEq ι] in
/-- A word that is written outside all slots is not in a cell of one. -/
theorem Balanced.keeps_write (h : estate.Balanced) (hhonest : Honest estate.calls) {address : Nat}
    (houtside : estate.Outside address) (word : Nat) (i : ι) :
    ∀ item ∈ estate.slots i,
      (T i).Keeps item estate.world.memory (estate.world.memory.write address word) := by
  intro item hitem
  cases hfound : estate.accounts i with
  | none => simp [slots, hfound] at hitem
  | some account =>
      rw [slots_of_some hfound] at hitem
      exact .write ((h.spread hhonest hfound).eight_dvd_slot hitem)
        (houtside i account hfound item hitem) _ _

/-! ### One action -/

/-- A property of accounts that the contract keeps up, and that depends on the slots of the pool
alone. -/
structure Invariant (S : Supply α σ) (contract : Contract T α)
    (P : (i : ι) → Account (T i) α → Memory → Prop) : Prop where
  congr : ∀ {i} {account : Account (T i) α} {memory after : Memory}, P i account memory →
    (∀ item ∈ account.pool.index.slots, (T i).Keeps item memory after) → P i account after
  built : ∀ {i} {plan : Blueprint α} {world : World (Recorded α σ)}
    {reply : Reply (Recorded α σ) (Pool (T i) α)} {pool : Pool (T i) α},
    plan.Built world reply → reply.result = .ok pool → pool.index.Spread →
      P i { pool } reply.world.memory ∧
        (T i).WritesOnly pool.index.slots world.memory reply.world.memory
  served : ∀ {i} {account : Account (T i) α} {world : World (Recorded α σ)}
    {request : Request (T i) Nat}, P i account world.memory → contract i account request →
    account.pool.index.Spread →
      let served := account.serve S.recorded world request
      served.account.pool.index.Spread →
        P i served.account served.world.memory ∧
          (T i).WritesOnly served.account.pool.index.slots world.memory served.world.memory

/-- All accounts have the property. -/
def All (P : (i : ι) → Account (T i) α → Memory → Prop) (estate : Estate T α σ) : Prop :=
  ∀ i account, estate.accounts i = some account → P i account estate.world.memory

omit [Fintype ι] [DecidableEq ι] [DecidableEq α] in
theorem All.start (P : (i : ι) → Account (T i) α → Memory → Prop) (memory : Memory) (state : σ) :
    All P (Estate.start memory state : Estate T α σ) := by
  intro i account h
  cases h

/-- What an action does to the memory and to the one pool it is about. -/
structure Minded (P : (i : ι) → Account (T i) α → Memory → Prop) (estate : Estate T α σ) (i : ι)
    (world : World (Recorded α σ)) (account : Option (Account (T i) α)) : Prop where
  writes : (T i).WritesOnly ((estate.put i world account).slots i) estate.world.memory world.memory
  holds : ∀ after, account = some after → P i after world.memory

namespace Invariant

variable {S : Supply α σ} {contract : Contract T α}
  {P : (i : ι) → Account (T i) α → Memory → Prop} {action : Action T α}

theorem minded (hinvariant : Invariant S contract P) (hbalanced : estate.Balanced)
    (h : estate.All P) (hpermits : estate.PermitsBy contract action)
    (hhonest : Honest (estate.step S action).calls) :
    (∃ memory, estate.step S action = estate.withMemory memory ∧
      ∀ i, ∀ item ∈ estate.slots i, (T i).Keeps item estate.world.memory memory) ∨
    ∃ i world account, action.About i ∧ estate.step S action = estate.put i world account ∧
      estate.Minded P i world account := by
  have hbefore := hhonest.of_suffix (estate.suffix_step S action)
  have hbalanced' := hbalanced.step S action
  generalize hafter : estate.step S action = after at hhonest hbalanced'
  have hstepped := hafter ▸ estate.stepped S action
  cases hstepped with
  | skipped => exact .inl ⟨_, rfl, fun i item _ => .refl item _⟩
  | built i plan reply pool hmissing hreply hresult =>
      have hbuilt := hreply ▸ Blueprint.build_built (T := T i) S plan estate.world
      have hfound' := accounts_put_self estate i reply.world (some { pool })
      obtain ⟨hnew, hwrites⟩ :=
        hinvariant.built hbuilt hresult (hbalanced'.spread hhonest hfound')
      refine .inr ⟨i, _, _, rfl, rfl, ?_, ?_⟩
      · rw [slots_of_some hfound']
        exact hwrites
      · rintro _ ⟨⟩
        exact hnew
  | unbuilt i plan reply stop hmissing hreply hresult =>
      have hbuilt := hreply ▸ Blueprint.build_built (T := T i) S plan estate.world
      refine .inr ⟨i, _, _, rfl, rfl, ?_, nofun⟩
      rw [(hbuilt.of_error hresult).1]
      exact .refl _ _
  | served i account request served hfound hserved =>
      have hfound' := accounts_put_self estate i served.world (some served.account)
      have hnow := hinvariant.served (h i account hfound) (hpermits account hfound)
        (hbalanced.spread hbefore hfound) (hserved ▸ hbalanced'.spread hhonest hfound')
      rw [hserved] at hnow
      obtain ⟨hnew, hwrites⟩ := hnow
      refine .inr ⟨i, _, _, rfl, rfl, ?_, ?_⟩
      · rw [slots_of_some hfound']
        exact hwrites
      · rintro _ ⟨⟩
        exact hnew
  | dropped i account reply hfound hreply =>
      refine .inr ⟨i, _, _, rfl, rfl, ?_, nofun⟩
      rw [← hreply, Pool.drop_eq, Pool.memory_destroy]
      exact .refl _ _
  | disturbed address word =>
      exact .inl ⟨_, rfl, fun i => hbalanced.keeps_write hbefore hpermits word i⟩

/-- An action about one pool leaves the slots of the others as they are. -/
theorem keeps_step (hinvariant : Invariant S contract P) (hbalanced : estate.Balanced)
    (h : estate.All P) (hpermits : estate.PermitsBy contract action)
    (hhonest : Honest (estate.step S action).calls) {i : ι} (hi : ¬ action.About i) :
    (estate.step S action).accounts i = estate.accounts i ∧
      ∀ item ∈ estate.slots i,
        (T i).Keeps item estate.world.memory (estate.step S action).world.memory := by
  have hbalanced' := hbalanced.step S action
  obtain ⟨memory, hsame, hkeeps⟩ | ⟨j, world, account, habout, hput, hminded⟩ :=
    hinvariant.minded hbalanced h hpermits hhonest
  · rw [hsame]
    exact ⟨rfl, hkeeps i⟩
  · have hne : i ≠ j := by
      rintro rfl
      exact hi habout
    rw [hput] at hhonest hbalanced' ⊢
    exact ⟨accounts_put_of_ne _ _ _ _ hne,
      fun item hitem => hbalanced'.keeps_put hhonest hminded.writes hne hitem⟩

theorem step (hinvariant : Invariant S contract P) (hbalanced : estate.Balanced)
    (h : estate.All P) (hpermits : estate.PermitsBy contract action)
    (hhonest : Honest (estate.step S action).calls) : (estate.step S action).All P := by
  obtain ⟨memory, hsame, hkeeps⟩ | ⟨j, world, account, habout, hput, hminded⟩ :=
    hinvariant.minded hbalanced h hpermits hhonest
  · intro i own hfound
    rw [hsame] at hfound ⊢
    rw [accounts_withMemory] at hfound
    have hkeeps := hkeeps i
    rw [slots_of_some hfound] at hkeeps
    exact hinvariant.congr (h i own hfound) hkeeps
  · intro i own hfound
    by_cases hi : i = j
    · subst hi
      rw [hput, accounts_put_self] at hfound
      rw [hput]
      exact hminded.holds own hfound
    · obtain ⟨hsame, hkeeps⟩ := hinvariant.keeps_step hbalanced h hpermits hhonest
        fun hother => hi (hother.unique habout)
      rw [hsame] at hfound
      rw [slots_of_some hfound] at hkeeps
      exact hinvariant.congr (h i own hfound) hkeeps

theorem run (hinvariant : Invariant S contract P) (hbalanced : estate.Balanced)
    (h : estate.All P) {actions : List (Action T α)}
    (hlawful : estate.LawfulBy contract S actions)
    (hhonest : Honest (estate.run S actions).calls) : (estate.run S actions).All P := by
  induction actions generalizing estate with
  | nil => exact h
  | cons action actions ih =>
      have hfirst := hhonest.of_suffix (suffix_run S _ actions)
      exact ih (hbalanced.step S action) (hinvariant.step hbalanced h hlawful.1 hfirst) hlawful.2
        hhonest

end Invariant

/-! ### Soundness -/

abbrev Sound (estate : Estate T α σ) : Prop :=
  estate.All fun _ account memory => ∃ free, account.Sound memory free

namespace Sound

omit [Fintype ι] [DecidableEq ι] [DecidableEq α] in
theorem start (memory : Memory) (state : σ) :
    Sound (Estate.start memory state : Estate T α σ) :=
  All.start _ memory state

omit [Fintype ι] [DecidableEq ι] [DecidableEq α] in
theorem invariant (S : Supply α σ) :
    Invariant (T := T) S (fun _ => Account.PermitsCounted)
      fun _ account memory => ∃ free, account.Sound memory free where
  congr := by
    rintro i account memory after ⟨free, hfree⟩ hkeeps
    exact ⟨free, hfree.congr hkeeps⟩
  built hbuilt hresult hspread := hbuilt.sound hresult hspread
  served := by
    rintro i account world request ⟨free, hfree⟩ hcounted hspread served hspread'
    have hkept := hfree.serve S request hcounted hspread hspread'
    exact ⟨hkept.sound, hkept.writesOnly⟩

theorem run (S : Supply α σ) (hbalanced : estate.Balanced) (hsound : estate.Sound)
    {actions : List (Action T α)} (hlawful : estate.LawfulCounted S actions)
    (hhonest : Honest (estate.run S actions).calls) : (estate.run S actions).Sound :=
  (invariant S).run hbalanced hsound hlawful hhonest

/-- What holds at the start, and after every action if it held before, holds after the whole run.
At each action, the accounts are sound and its client is permitted to make it. -/
theorem run_induction (S : Supply α σ) (hbalanced : estate.Balanced) (hsound : estate.Sound)
    {motive : List (Action T α) → Prop} (hnil : motive [])
    (hsnoc : ∀ earlier action, (estate.run S earlier).Sound →
      (estate.run S earlier).PermitsCounted action → motive earlier → motive (earlier ++ [action]))
    {actions : List (Action T α)} (hlawful : estate.LawfulCounted S actions)
    (hhonest : Honest (estate.run S actions).calls) : motive actions := by
  induction actions using List.reverseRecOn with
  | nil => exact hnil
  | append_singleton earlier action ih =>
      obtain ⟨hearlier, hcounted, -⟩ := lawfulBy_append.mp hlawful
      rw [run_append] at hhonest
      have hbefore := hhonest.of_suffix (suffix_run S _ [action])
      exact hsnoc earlier action (hsound.run S hbalanced hearlier hbefore) hcounted
        (ih hearlier hbefore)

end Sound

end SlabPool.Estate
