import SlabPool.Host.Collaborator
import SlabPool.Proofs.Estate.Coverage
import SlabPool.Proofs.Places
import SlabPool.Session.Kind

/-!
Items in use stay as they are.

Between two points of a run, any number of actions are carried out on any number of pools. An item
that was in use at the first point is in use at the second, unless its own client gave it up; it is
at the same place, and unless its own client wrote into it, all of its bytes are the same. Whatever
a client put into an item last is therefore what is read from it (`Estate.undisturbed_of_run`).

The list of slabs of a pool that was not destroyed in between is continued, never changed.
-/

namespace SlabPool.Estate

variable {ι α σ : Type} {T : ι → ItemType} [Fintype ι] [DecidableEq ι] [DecidableEq α]

/-- What is left of an account of the pool `i` after some actions, none of which gives back all
slabs. -/
structure Undisturbed (i : ι) (actions : List (Action T α)) (account : Account (T i) α)
    (before : Memory) (after : Account (T i) α) (memory : Memory) : Prop where
  slabs : account.pool.index.slabs <+: after.pool.index.slabs
  held : ∀ item ∈ account.held, (∀ action ∈ actions, ¬ action.Ends i item) → item ∈ after.held
  keeps : ∀ item ∈ account.held, (∀ action ∈ actions, ¬ action.Ends i item) →
    (∀ action ∈ actions, ¬ action.Overwrites i item) → (T i).Keeps item before memory
  contents : ∀ item ∈ account.held, (∀ action ∈ actions, ¬ action.Ends i item) →
    (∀ action ∈ actions, ¬ action.Overwrites i item) →
      after.contents item = account.contents item

variable {estate : Estate T α σ}

theorem Covered.undisturbed (S : Supply α σ) (hbalanced : estate.Balanced)
    (hcovered : estate.Covered) {actions : List (Action T α)} (hlawful : estate.Lawful S actions)
    (hhonest : Honest (estate.run S actions).calls) {i : ι} {account : Account (T i) α}
    (hfound : estate.accounts i = some account) (hclears : ∀ action ∈ actions, ¬ action.Clears i) :
    ∃ after, (estate.run S actions).accounts i = some after ∧
      Undisturbed i actions account estate.world.memory after
        (estate.run S actions).world.memory := by
  induction actions generalizing estate account with
  | nil =>
      refine ⟨account, hfound, List.prefix_rfl, ?_, ?_, ?_⟩
      · exact fun item hitem _ => hitem
      · exact fun item _ _ _ => .refl _ _
      · exact fun item _ _ _ => rfl
  | cons action actions ih =>
      obtain ⟨hpermits, hlawful⟩ := hlawful
      obtain ⟨hclear, hclears⟩ := List.forall_mem_cons.mp hclears
      have hbalanced' := hbalanced.step S action
      have hfirst := hhonest.of_suffix (suffix_run S _ actions)
      have hcovered' := hcovered.step S hbalanced hpermits hfirst
      obtain ⟨middle, hmiddle, hgrow, hkept⟩ :=
        hcovered.kept_step S hbalanced hpermits hfirst hfound hclear
      obtain ⟨after, hafter, hrest⟩ := ih hbalanced' hcovered' hlawful hhonest hmiddle hclears
      refine ⟨after, hafter, hgrow.trans hrest.slabs, ?_, ?_, ?_⟩
      · intro item hitem hends
        obtain ⟨hend, hends⟩ := List.forall_mem_cons.mp hends
        obtain ⟨hmember, -⟩ := hkept item hitem hend
        exact hrest.held item hmember hends
      · intro item hitem hends hoverwrites
        obtain ⟨hend, hends⟩ := List.forall_mem_cons.mp hends
        obtain ⟨hoverwrite, hoverwrites⟩ := List.forall_mem_cons.mp hoverwrites
        obtain ⟨hmember, hstill⟩ := hkept item hitem hend
        obtain ⟨hkeeps, -⟩ := hstill hoverwrite
        exact hkeeps.trans (hrest.keeps item hmember hends hoverwrites)
      · intro item hitem hends hoverwrites
        obtain ⟨hend, hends⟩ := List.forall_mem_cons.mp hends
        obtain ⟨hoverwrite, hoverwrites⟩ := List.forall_mem_cons.mp hoverwrites
        obtain ⟨hmember, hstill⟩ := hkept item hitem hend
        obtain ⟨-, hcontent⟩ := hstill hoverwrite
        exact (hrest.contents item hmember hends hoverwrites).trans hcontent

/-- Between two points of a lawful run over any number of pools, with `later` carried out in between
and not giving back all slabs of the pool `i`, the list of slabs of that pool is continued at its
end only. An item that was held at the first point, and that its own client did not give up, is
still held; it lies in the same slot of the same slab, and has the same bytes unless its own client
wrote into it. At the second point, every item in use reads as the value that was put into it last.
How often items were handed out does not matter. -/
theorem undisturbed_of_run (S : Supply α σ) (memory : Memory) (state : σ)
    (earlier later : List (Action T α))
    (hlawful : (start memory state).Lawful S (earlier ++ later))
    (hhonest : Honest ((start memory state).run S (earlier ++ later)).calls)
    (i : ι) (account : Account (T i) α)
    (hfound : ((start memory state).run S earlier).accounts i = some account)
    (hclears : ∀ action ∈ later, ¬ action.Clears i) :
    let before := (start memory state).run S earlier
    let final := before.run S later
    ∃ after, final.accounts i = some after ∧
      account.pool.capacities <+: after.pool.capacities ∧
      (∀ item ∈ account.held, (∀ action ∈ later, ¬ action.Ends i item) →
        item ∈ after.held ∧
        (∃ place, account.pool.index.locate? item = some place ∧
          after.pool.index.locate? item = some place) ∧
        ((∀ action ∈ later, ¬ action.Overwrites i item) →
          (T i).Keeps item before.world.memory final.world.memory ∧
          ∀ value, account.contents item = some value →
            (after.serve S.recorded final.world (.read item)).result = .ok (.value value))) ∧
      ∀ item ∈ after.held, ∀ value, after.contents item = some value →
        (after.serve S.recorded final.world (.read item)).result = .ok (.value value) := by
  intro before final
  obtain ⟨hearlier, hlater⟩ := lawfulBy_append.mp hlawful
  rw [run_append] at hhonest
  have hstart : Balanced (start memory state : Estate T α σ) := .start memory state
  have hbalanced : before.Balanced := hstart.run S earlier
  have hbalanced' : final.Balanced := hbalanced.run S later
  -- what was lent up to the first point was lent by honest allocators too
  have hbefore := hhonest.of_suffix (suffix_run S _ later)
  have hcovered : before.Covered := (Covered.start memory state).run S hstart hearlier hbefore
  have hcovered' : final.Covered := hcovered.run S hbalanced hlater hhonest
  obtain ⟨after, hafter, hundisturbed⟩ :=
    hcovered.undisturbed S hbalanced hlater hhonest hfound hclears
  have hread : ∀ item ∈ after.held, ∀ value, after.contents item = some value →
      (after.serve S.recorded final.world (.read item)).result = .ok (.value value) := by
    intro item hitem value hvalue
    show Except.ok (Outcome.value ((T i).load final.world.memory item)) = _
    rw [(hcovered' i after hafter).load_eq hitem hvalue]
  refine ⟨after, hafter, ?_, ?_, hread⟩
  · exact hundisturbed.slabs.map _
  · intro item hitem hends
    have hmember := hundisturbed.held item hitem hends
    refine ⟨hmember, ?_, ?_⟩
    · exact (hbalanced.spread hbefore hfound).locate?_mono (hbalanced'.spread hhonest hafter)
        hundisturbed.slabs ((hcovered i account hfound).mem_slots hitem)
    · intro hoverwrites
      refine ⟨hundisturbed.keeps item hitem hends hoverwrites, ?_⟩
      intro value hvalue
      rw [← hundisturbed.contents item hitem hends hoverwrites] at hvalue
      exact hread item hmember value hvalue

/-- The first pool has a value in one of its two slots. -/
def settledIn : List (Action (fun _ : Bool => Kind.pair.itemType) Collaborator) :=
  [.build true { allocator := {}, initial := some 2 },
    .use true (.insert (Kind.pair.fit [6, 7]))]

/-- What goes on beside it: slots come and go, both pools grow, the other one is dropped, and
somebody writes into its block after that. -/
def goingOn : List (Action (fun _ : Bool => Kind.pair.itemType) Collaborator) :=
  [.build false { allocator := {} },
    .use true .acquire,
    .use false (.insert (Kind.pair.fit [8, 9])),
    .use true .acquire,
    .use true (.write 4112 (Kind.pair.fit [0, 0])),
    .use true (.release 4112),
    .use true (.grow 3),
    .drop false,
    .elsewhere 4136 77,
    .use true .check]

theorem undisturbed_of_goingOn :
    let final := ((start {} {}).run Host.supply settledIn).run Host.supply goingOn
    ∃ after, final.accounts true = some after ∧ after.pool.capacities = [2, 8, 3] ∧
      4096 ∈ after.held ∧
      (after.serve Host.supply.recorded final.world (.read 4096)).result =
        .ok (.value (Kind.pair.fit [6, 7])) := by
  intro final
  have hfound : (((start {} {}).run Host.supply settledIn).accounts true).isSome := rfl
  have hends : ∀ action ∈ goingOn, ¬ action.Ends true 4096 := by
    simp [goingOn, Action.Ends, Request.Ends]
  have hoverwrites : ∀ action ∈ goingOn, ¬ action.Overwrites true 4096 := by
    simp [goingOn, Action.Overwrites, Request.Overwrites]
  have hclears : ∀ action ∈ goingOn, ¬ action.Clears true := by
    simp [goingOn, Action.Clears]
  obtain ⟨after, hafter, -, hkept, -⟩ := undisturbed_of_run Host.supply {} {} settledIn goingOn
    (by decide) (by decide) true _ (Option.some_get hfound).symm hclears
  obtain ⟨hheld, -, hread⟩ := hkept 4096 (List.mem_singleton_self 4096) hends
  refine ⟨after, hafter, ?_, hheld, (hread hoverwrites).2 _ rfl⟩
  have hcapacities : (final.accounts true).map (·.pool.capacities) = some [2, 8, 3] := rfl
  rw [hafter] at hcapacities
  exact Option.some.inj hcapacities

end SlabPool.Estate
