import SlabPool.Proofs.Account.Uncounted
import SlabPool.Proofs.Estate.Custody

/-!
Estates whose acquisitions cannot all be counted.

Where allocators are honest and clients keep to what they hold, however many items they acquire, all
accounts are covered at every point of every run (`Estate.Covered.run`). An item in use stays as it
is, then, until its own client gives it up: `Estate.Covered.kept_step` says so of one action.
-/

namespace SlabPool.Estate

variable {ι α σ : Type} {T : ι → ItemType}

abbrev Covered (estate : Estate T α σ) : Prop :=
  estate.All fun _ => Account.Covered

variable [Fintype ι] [DecidableEq ι] [DecidableEq α] {estate : Estate T α σ} {action : Action T α}

namespace Covered

omit [Fintype ι] [DecidableEq ι] [DecidableEq α] in
theorem start (memory : Memory) (state : σ) :
    Covered (Estate.start memory state : Estate T α σ) :=
  All.start _ memory state

omit [Fintype ι] [DecidableEq ι] [DecidableEq α] in
theorem invariant (S : Supply α σ) :
    Invariant (T := T) S (fun _ => Account.Permits) fun _ => Account.Covered where
  congr h hkeeps := h.congr hkeeps
  built hbuilt hresult hspread := hbuilt.covered hresult hspread
  served := by
    intro i account world request h hpermits hspread served hspread'
    have hafter := h.serve S hpermits hspread hspread'
    exact ⟨hafter.covered, hafter.writesOnly⟩

/-- An action about one pool leaves the slots of the others as they are. -/
theorem keeps_step (S : Supply α σ) (hbalanced : estate.Balanced) (h : estate.Covered)
    (hpermits : estate.Permits action) (hhonest : Honest (estate.step S action).calls) {i : ι}
    (hi : ¬ action.About i) :
    (estate.step S action).accounts i = estate.accounts i ∧
      ∀ item ∈ estate.slots i,
        (T i).Keeps item estate.world.memory (estate.step S action).world.memory :=
  (invariant S).keeps_step hbalanced h hpermits hhonest hi

theorem step (S : Supply α σ) (hbalanced : estate.Balanced) (h : estate.Covered)
    (hpermits : estate.Permits action) (hhonest : Honest (estate.step S action).calls) :
    (estate.step S action).Covered :=
  (invariant S).step hbalanced h hpermits hhonest

theorem run (S : Supply α σ) (hbalanced : estate.Balanced) (h : estate.Covered)
    {actions : List (Action T α)} (hlawful : estate.Lawful S actions)
    (hhonest : Honest (estate.run S actions).calls) : (estate.run S actions).Covered :=
  (invariant S).run hbalanced h hlawful hhonest

/-- Unless the action ends the hold on it, an item stays held, and unless its own client writes into
it, it stays as it is. -/
theorem kept_step (S : Supply α σ) (hbalanced : estate.Balanced) (h : estate.Covered)
    (hpermits : estate.Permits action) (hhonest : Honest (estate.step S action).calls) {i : ι}
    {account : Account (T i) α} (hfound : estate.accounts i = some account)
    (hclears : ¬ action.Clears i) :
    ∃ after, (estate.step S action).accounts i = some after ∧
      account.pool.index.slabs <+: after.pool.index.slabs ∧
      ∀ item ∈ account.held, ¬ action.Ends i item → item ∈ after.held ∧
        (¬ action.Overwrites i item →
          (T i).Keeps item estate.world.memory (estate.step S action).world.memory ∧
            after.contents item = account.contents item) := by
  by_cases hi : action.About i
  · cases action with
    | elsewhere => exact hi.elim
    | drop j => exact absurd hi hclears
    | build j plan =>
        obtain rfl : j = i := hi
        have hsame : estate.step S (.build j plan) = estate := by simp only [Estate.step, hfound]
        rw [hsame]
        exact ⟨account, hfound, List.prefix_rfl,
          fun item hitem _ => ⟨hitem, fun _ => ⟨.refl _ _, rfl⟩⟩⟩
    | use j request =>
        obtain rfl : j = i := hi
        have hbefore := hhonest.of_suffix (estate.suffix_step S (.use j request))
        have hnext := accounts_step_use S hfound request
        have hspread' := hbalanced.spread_of_use hfound hhonest
        have hafter := (h j account hfound).serve S (hpermits account hfound)
          (hbalanced.spread hbefore hfound) hspread'
        have hturnover := account.serve_turnover S (hbalanced.fits j account hfound) estate.world
          request
        rw [world_step_use S hfound]
        refine ⟨_, hnext, hturnover.slabs_grow fun heq => hclears ⟨rfl, heq⟩, ?_⟩
        intro item hitem hends
        have hends : ¬ request.Ends item := fun hrequest => hends ⟨rfl, hrequest⟩
        have hheld := hafter.held item hitem hends
        refine ⟨hheld, ?_⟩
        intro hoverwrites
        have hoverwrites : ¬ request.Overwrites item := fun hrequest => hoverwrites ⟨rfl, hrequest⟩
        exact ⟨hafter.keeps hspread' hitem (hafter.covered.mem_slots hheld) hends hoverwrites,
          hafter.contents item hitem hends hoverwrites⟩
  · obtain ⟨hsame, hkeeps⟩ := h.keeps_step S hbalanced hpermits hhonest hi
    refine ⟨account, hsame.trans hfound, List.prefix_rfl, ?_⟩
    intro item hitem _
    have hslot := (h i account hfound).mem_slots hitem
    rw [← slots_of_some hfound] at hslot
    exact ⟨hitem, fun _ => ⟨hkeeps item hslot, rfl⟩⟩

end Covered

end SlabPool.Estate
