import SlabPool.Proofs.BlockAccounting

/-!
Blocks that are lost.

When a fault is raised while the slabs of a pool are given back, some blocks stay on loan that are
the blocks of no pool any more. Nobody will ever hand them back, and so they stay on loan for good
(`Estate.Lost.run`). To honest allocators they are in use like any others: every block that is lent
or handed back from then on, by whatever pool, is apart from them (`Estate.Lost.apart_run`).

Clients have no part in any of this.
-/

namespace SlabPool

variable {ι α σ : Type} {T : ι → ItemType}

/-! ### Blocks that change hands -/

theorem HandBack.lent_eq {given : List (Loan α)} {before after : List (Call α)}
    {result : Except Fault Unit} (h : HandBack given before after result) :
    lent after = lent before := by
  cases h with
  | all _ hcalls => rw [hcalls, lent_handedBack]
  | halted earlier later loan fault _ _ hcalls =>
      rw [hcalls, ← lent_handedBack earlier before]
      rfl

theorem HandBack.returned_subset {given : List (Loan α)} {before new : List (Call α)}
    {result : Except Fault Unit} (h : HandBack given before (new ++ before) result) :
    returned new ⊆ given := by
  cases h with
  | all _ hcalls =>
      have hreturned := congrArg returned hcalls
      rw [returned_append, returned_handedBack, List.append_left_inj] at hreturned
      rw [hreturned]
      exact fun loan hloan => List.mem_reverse.mp hloan
  | halted earlier later loan fault _ hgiven hcalls =>
      have hreturned : returned (new ++ before) = loan :: returned (handedBack earlier before) :=
        congrArg returned hcalls
      rw [returned_append, returned_handedBack, ← List.cons_append, List.append_left_inj]
        at hreturned
      rw [hreturned, hgiven]
      intro other hother
      rcases List.mem_cons.mp hother with rfl | hother
      · exact List.mem_append_right earlier List.mem_cons_self
      · exact List.mem_append_left _ (List.mem_reverse.mp hother)

/-- What was lent after some point and what was on loan then is still on loan or was handed back. -/
theorem Faithful.lent_add_loans [DecidableEq α] {new calls : List (Call α)}
    (hcalls : Faithful calls) (h : Faithful (new ++ calls)) :
    (lent new : Multiset (Loan α)) + loans calls =
      loans (new ++ calls) + (returned new : Multiset (Loan α)) := by
  have hall := h.lent_eq
  rw [lent_append, returned_append, ← Multiset.coe_add, ← Multiset.coe_add, hcalls.lent_eq,
    ← add_assoc, ← add_assoc] at hall
  exact add_right_cancel hall

/-- In an exchange, the owner is lent what it owns afterwards and did not own before, and hands back
what it owned before. -/
structure Moved (own own' : List (Loan α)) (new : List (Call α)) : Prop where
  lent_subset : lent new ⊆ own'
  returned_subset : returned new ⊆ own
  own_subset : own' ⊆ own ++ lent new

theorem Exchange.moved {own own' : List (Loan α)} {before new : List (Call α)}
    (h : Exchange own before own' (new ++ before)) : Moved own own' new := by
  cases h with
  | still hown hidle =>
      have hlent := hidle.lent_eq
      have hreturned := hidle.returned_eq
      rw [lent_append, List.append_left_eq_self] at hlent
      rw [returned_append, List.append_left_eq_self] at hreturned
      refine ⟨by simp [hlent], by simp [hreturned], ?_⟩
      rw [hown]
      exact List.subset_append_left own _
  | lent loan earlier hown hidle hcalls =>
      have hlent : SlabPool.lent (new ++ before) = [loan] ++ SlabPool.lent before := by
        rw [hcalls, ← hidle.lent_eq]
        rfl
      have hreturned : returned (new ++ before) = returned before := by
        rw [hcalls, ← hidle.returned_eq]
        rfl
      rw [lent_append, List.append_left_inj] at hlent
      rw [returned_append, List.append_left_eq_self] at hreturned
      rw [hown]
      refine ⟨?_, by simp [hreturned], ?_⟩
      · rw [hlent]
        exact List.subset_append_right own [loan]
      · rw [hlent]
        exact List.Subset.refl _
  | ended result hown hback =>
      have hlent := hback.lent_eq
      rw [lent_append, List.append_left_eq_self] at hlent
      exact ⟨by simp [hlent], hback.returned_subset, by simp [hown]⟩

namespace Estate

variable [Fintype ι] [DecidableEq ι] [DecidableEq α] {estate : Estate T α σ}
  {lost : Multiset (Loan α)}

/-- Besides the blocks of all pools, the lost ones are on loan. -/
def Lost (estate : Estate T α σ) (lost : Multiset (Loan α)) : Prop :=
  (∑ i, (estate.blocks i : Multiset (Loan α))) + lost ≤ loans estate.calls

namespace Lost

omit [DecidableEq ι] in
theorem pair_le (h : estate.Lost lost) {i : ι} {loan gone : Loan α}
    (hloan : loan ∈ estate.blocks i) (hgone : gone ∈ lost) :
    loan ::ₘ {gone} ≤ loans estate.calls := by
  have hpair : {loan} + {gone} ≤ (estate.blocks i : Multiset (Loan α)) + lost :=
    add_le_add (Multiset.singleton_le.mpr hloan) (Multiset.singleton_le.mpr hgone)
  exact hpair.trans ((add_le_add_left (estate.blocks_le_sum i) lost).trans h)

theorem put (h : estate.Lost lost) {i : ι} {world : World (Recorded α σ)}
    {account : Option (Account (T i) α)}
    (hexchange : Exchange (estate.blocks i) estate.calls
      ((estate.put i world account).blocks i) world.supply.calls) :
    (estate.put i world account).Lost lost := by
  obtain ⟨rest, hrest⟩ := Multiset.le_iff_exists_add.mp h
  rw [Fintype.sum_eq_add_sum_compl i, add_assoc, add_assoc] at hrest
  obtain ⟨newly, hloans, -⟩ := hexchange.exists_lost hrest
  refine Multiset.le_iff_exists_add.mpr ⟨newly + rest, ?_⟩
  rw [calls_put, hloans, sum_blocks_eq fun j hj => accounts_put_of_ne estate i world account hj,
    add_left_comm newly, add_left_comm newly, ← add_assoc, ← add_assoc, ← add_assoc]

/-- What is lent or handed back in one action is apart from what was lost before. -/
theorem put_apart (h : estate.Lost lost) {i : ι} {world : World (Recorded α σ)}
    {account : Option (Account (T i) α)} {new : List (Call α)}
    (hnew : world.supply.calls = new ++ estate.calls)
    (hexchange : Exchange (estate.blocks i) estate.calls
      ((estate.put i world account).blocks i) world.supply.calls)
    (hhonest : Honest world.supply.calls) :
    ∀ moved ∈ SlabPool.lent new ++ returned new, ∀ gone ∈ lost, moved.Apart gone := by
  have hafter := h.put hexchange
  have hbefore : Honest estate.calls := hhonest.of_suffix hexchange.suffix
  rw [hnew] at hexchange
  obtain ⟨hlent, hreturned, -⟩ := hexchange.moved
  intro moved hmoved gone hgone
  rcases List.mem_append.mp hmoved with hmoved | hmoved
  · exact hhonest.apart (hafter.pair_le (hlent hmoved) hgone)
  · exact hbefore.apart (h.pair_le (hreturned hmoved) hgone)

theorem step (S : Supply α σ) (hbalanced : estate.Balanced) (h : estate.Lost lost)
    (action : Action T α) : (estate.step S action).Lost lost := by
  obtain ⟨memory, hsame⟩ | ⟨i, world, account, hput, hexchange, -⟩ := hbalanced.exchanged S action
  · rw [hsame]
    exact h
  · rw [hput]
    exact h.put hexchange

theorem run (S : Supply α σ) (hbalanced : estate.Balanced) (h : estate.Lost lost)
    (actions : List (Action T α)) : (estate.run S actions).Lost lost := by
  induction actions generalizing estate with
  | nil => exact h
  | cons action actions ih => exact ih (hbalanced.step S action) (h.step S hbalanced action)

theorem apart_step (S : Supply α σ) (hbalanced : estate.Balanced) (h : estate.Lost lost)
    {action : Action T α} {new : List (Call α)}
    (hnew : (estate.step S action).calls = new ++ estate.calls)
    (hhonest : Honest (estate.step S action).calls) :
    ∀ moved ∈ SlabPool.lent new ++ returned new, ∀ gone ∈ lost, moved.Apart gone := by
  obtain ⟨memory, hsame⟩ | ⟨i, world, account, hput, hexchange, -⟩ := hbalanced.exchanged S action
  · rw [hsame, calls_withMemory, List.self_eq_append_left] at hnew
    simp [hnew, SlabPool.lent, returned]
  · rw [hput] at hnew hhonest
    exact h.put_apart hnew hexchange hhonest

/-- What is lent or handed back is apart from what was lost before. -/
theorem apart_run (S : Supply α σ) (hbalanced : estate.Balanced) (h : estate.Lost lost)
    {actions : List (Action T α)} {new : List (Call α)}
    (hnew : (estate.run S actions).calls = new ++ estate.calls)
    (hhonest : Honest (estate.run S actions).calls) :
    ∀ moved ∈ SlabPool.lent new ++ returned new, ∀ gone ∈ lost, moved.Apart gone := by
  induction actions generalizing estate new with
  | nil =>
      rw [run_nil, List.self_eq_append_left] at hnew
      simp [hnew, SlabPool.lent, returned]
  | cons action actions ih =>
      -- the calls of the first action come before those of the others
      obtain ⟨first, hfirst⟩ := estate.suffix_step S action
      obtain ⟨others, hothers⟩ := (estate.step S action).suffix_run S actions
      have hnew' : new = others ++ first := by
        rw [run_cons, ← hothers, ← hfirst, ← List.append_assoc] at hnew
        exact (List.append_cancel_right hnew).symm
      have hnow := h.apart_step S hbalanced hfirst.symm (hhonest.of_suffix ⟨others, hothers⟩)
      have hthen := ih (hbalanced.step S action) (h.step S hbalanced action) hothers.symm hhonest
      intro moved hmoved
      rw [hnew', lent_append, returned_append] at hmoved
      simp only [List.mem_append] at hmoved hnow hthen
      rcases hmoved with (hmoved | hmoved) | (hmoved | hmoved)
      · exact hthen moved (.inl hmoved)
      · exact hnow moved (.inl hmoved)
      · exact hthen moved (.inr hmoved)
      · exact hnow moved (.inr hmoved)

end Lost

/-- If the blocks of a pool were lent after some point of the record, they were so after any run. -/
theorem Balanced.blocks_run_subset (S : Supply α σ) (h : estate.Balanced) {i : ι}
    {base new : List (Call α)} (hnew : estate.calls = new ++ base)
    (hblocks : estate.blocks i ⊆ SlabPool.lent new) (actions : List (Action T α)) :
    ∃ newer, (estate.run S actions).calls = newer ++ base ∧
      (estate.run S actions).blocks i ⊆ SlabPool.lent newer := by
  induction actions generalizing estate new with
  | nil => exact ⟨new, hnew, hblocks⟩
  | cons action actions ih =>
      obtain ⟨first, hfirst⟩ := estate.suffix_step S action
      have hlater : (estate.step S action).calls = (first ++ new) ++ base := by
        rw [← hfirst, hnew, List.append_assoc]
      refine ih (h.step S action) hlater ?_
      rw [lent_append]
      obtain ⟨memory, hsame⟩ | ⟨j, world, account, hput, hexchange, -⟩ := h.exchanged S action
      · rw [hsame, blocks_withMemory]
        exact List.subset_append_of_subset_right _ hblocks
      · rw [hput, calls_put] at hfirst
        rw [← hfirst] at hexchange
        rw [hput]
        by_cases hj : i = j
        · subst hj
          refine List.Subset.trans hexchange.moved.own_subset ?_
          exact List.append_subset.mpr ⟨List.subset_append_of_subset_right _ hblocks,
            List.subset_append_left _ _⟩
        · rw [blocks_put_of_ne _ _ _ _ hj]
          exact List.subset_append_of_subset_right _ hblocks

end Estate

end SlabPool
