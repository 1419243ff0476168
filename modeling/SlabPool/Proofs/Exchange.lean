import SlabPool.Proofs.Lending

/-!
What becomes of the blocks of one owner.

Whoever owns blocks can leave them as they are, be lent one more, or hand all of them back.
`Exchange` lists the three, with the calls that go with them: nothing else happens to the blocks of
a pool. If a fault is raised while blocks are handed back, those that were still to come are not
handed back at all; they belong to nobody from then on (`HandBack.halted`).

All that follows about records of calls follows from the list: the blocks on loan, those that are
handed back, and the order of both.
-/

namespace SlabPool

variable {α : Type}

/-! ### Handing everything back -/

/-- What handing blocks back can come to. -/
inductive HandBack (given : List (Loan α)) (before after : List (Call α))
    (result : Except Fault Unit) : Prop
  | all (result_eq : result = .ok ()) (calls_eq : after = handedBack given before)
  | halted (earlier later : List (Loan α)) (loan : Loan α) (fault : Fault)
      (result_eq : result = .error fault)
      (given_eq : given = earlier ++ loan :: later)
      (calls_eq : after = .release loan (.error fault) :: handedBack earlier before)

namespace HandBack

variable {given : List (Loan α)} {before after : List (Call α)} {result : Except Fault Unit}

theorem suffix (h : HandBack given before after result) : before <:+ after := by
  cases h with
  | all _ hcalls =>
      rw [hcalls]
      exact suffix_handedBack _ _
  | halted earlier later loan fault _ _ hcalls =>
      rw [hcalls]
      exact (suffix_handedBack _ _).trans (List.suffix_cons _ _)

theorem result_eq_of_quiet (h : HandBack given before after result) (hquiet : Quiet after) :
    result = .ok () := by
  cases h with
  | all hresult _ => exact hresult
  | halted earlier later loan fault _ _ hcalls =>
      rw [hcalls] at hquiet
      exact absurd (hquiet _ List.mem_cons_self) Bool.false_ne_true

/-- Without a fault, all blocks are handed back, in order. -/
theorem calls_eq_of_quiet (h : HandBack given before after result) (hquiet : Quiet after) :
    after = handedBack given before := by
  have hresult := h.result_eq_of_quiet hquiet
  cases h with
  | all _ hcalls => exact hcalls
  | halted earlier later loan fault herror _ _ => cases herror.symm.trans hresult

variable [DecidableEq α] {rest : Multiset (Loan α)}

omit [DecidableEq α] in
/-- The blocks before one of them, that one, and those after it. -/
private theorem coe_split (earlier later : List (Loan α)) (loan : Loan α) :
    ((earlier ++ loan :: later : List (Loan α)) : Multiset (Loan α)) + rest =
      (earlier : Multiset (Loan α)) + (loan ::ₘ ((later : Multiset (Loan α)) + rest)) := by
  rw [← Multiset.coe_add, ← Multiset.cons_coe, Multiset.add_assoc, Multiset.cons_add]

/-- Where a fault is raised for one of the blocks, that one counts as handed back, and those after
it stay on loan. -/
theorem loans_of_halted {earlier later : List (Loan α)} {loan : Loan α} {fault : Fault}
    (hbefore :
      loans before = ((earlier ++ loan :: later : List (Loan α)) : Multiset (Loan α)) + rest) :
    loans (.release loan (.error fault) :: handedBack earlier before) =
      (later : Multiset (Loan α)) + rest := by
  rw [coe_split] at hbefore
  rw [loans, loans_handedBack hbefore, Multiset.erase_cons_head]

/-- The blocks still on loan are the `rest`, and those that a fault kept from being handed back. -/
theorem exists_lost (h : HandBack given before after result)
    (hbefore : loans before = given + rest) :
    ∃ lost, loans after = lost + rest ∧ (Quiet after → lost = 0) := by
  cases h with
  | all _ hcalls =>
      refine ⟨0, ?_, fun _ => rfl⟩
      rw [hcalls, loans_handedBack hbefore, Multiset.zero_add]
  | halted earlier later loan fault _ hgiven hcalls =>
      refine ⟨later, ?_, ?_⟩
      · rw [hgiven] at hbefore
        rw [hcalls, loans_of_halted hbefore]
      · intro hquiet
        rw [hcalls] at hquiet
        exact absurd (hquiet _ List.mem_cons_self) Bool.false_ne_true

theorem faithful (h : HandBack given before after result) (hbefore : loans before = given + rest)
    (hfaithful : Faithful before) : Faithful after := by
  cases h with
  | all _ hcalls => exact hcalls ▸ faithful_handedBack hfaithful hbefore
  | halted earlier later loan fault _ hgiven hcalls =>
      rw [hgiven, coe_split] at hbefore
      rw [hcalls]
      refine ⟨?_, faithful_handedBack hfaithful hbefore⟩
      rw [loans_handedBack hbefore]
      exact Multiset.mem_cons_self _ _

end HandBack

/-! ### Exchanges -/

/-- What can become of the blocks of one owner, with the calls that were made. -/
inductive Exchange (own : List (Loan α)) (before : List (Call α)) (own' : List (Loan α))
    (after : List (Call α)) : Prop
  | still (own_eq : own' = own) (idle : Idle before after)
  | lent (loan : Loan α) (earlier : List (Call α))
      (own_eq : own' = own ++ [loan])
      (idle : Idle before earlier)
      (calls_eq : after = .allocate loan.allocator loan.layout (.ok loan.block) :: earlier)
  | ended (result : Except Fault Unit)
      (own_eq : own' = [])
      (handBack : HandBack own before after result)

namespace Exchange

variable {own own' : List (Loan α)} {before after : List (Call α)}

theorem suffix (h : Exchange own before own' after) : before <:+ after := by
  cases h with
  | still _ hidle => exact hidle.suffix
  | lent loan earlier _ hidle hcalls =>
      rw [hcalls]
      exact hidle.suffix.trans (List.suffix_cons _ _)
  | ended result _ hback => exact hback.suffix

/-- Blocks are listed in the order in which they were lent. -/
theorem sublist_lent (h : Exchange own before own' after)
    (hbefore : own.Sublist (SlabPool.lent before).reverse) :
    own'.Sublist (SlabPool.lent after).reverse := by
  cases h with
  | still hown hidle => rwa [hown, hidle.lent_eq]
  | lent loan earlier hown hidle hcalls =>
      have hlent : SlabPool.lent after = loan :: SlabPool.lent before := by
        rw [hcalls, ← hidle.lent_eq]
        rfl
      rw [hown, hlent, List.reverse_cons]
      exact hbefore.append (List.Sublist.refl [loan])
  | ended result hown _ => simp [hown]

variable [DecidableEq α] {rest : Multiset (Loan α)}

/-- The blocks on loan are those of the owner and the `rest`, as before, and those that a fault kept
from being handed back, if there was one. -/
theorem exists_lost (h : Exchange own before own' after) (hbefore : loans before = own + rest) :
    ∃ lost, loans after = own' + (lost + rest) ∧ (Quiet after → lost = 0) := by
  cases h with
  | still hown hidle =>
      refine ⟨0, ?_, fun _ => rfl⟩
      rw [hidle.loans_eq, hbefore, hown, Multiset.zero_add]
  | lent loan earlier hown hidle hcalls =>
      refine ⟨0, ?_, fun _ => rfl⟩
      calc loans after
          = loan ::ₘ loans before := by rw [hcalls, loans, hidle.loans_eq]
        _ = (loan ::ₘ (own : Multiset (Loan α))) + rest := by rw [hbefore, Multiset.cons_add]
        _ = own' + (0 + rest) := by
            rw [Multiset.zero_add, hown, ← Multiset.coe_add, Multiset.coe_singleton,
              Multiset.add_comm _ {loan}, Multiset.singleton_add]
  | ended result hown hback =>
      obtain ⟨lost, hlost, hquiet⟩ := hback.exists_lost hbefore
      refine ⟨lost, ?_, hquiet⟩
      rw [hlost, hown, Multiset.coe_nil, Multiset.zero_add]

/-- Only what is on loan is handed back. -/
theorem faithful (h : Exchange own before own' after) (hbefore : loans before = own + rest)
    (hfaithful : Faithful before) : Faithful after := by
  cases h with
  | still _ hidle => exact hidle.faithful_iff.mpr hfaithful
  | lent loan earlier _ hidle hcalls =>
      rw [hcalls]
      exact hidle.faithful_iff.mpr hfaithful
  | ended result _ hback => exact hback.faithful hbefore hfaithful

end Exchange

end SlabPool
