import Mathlib.Data.Multiset.AddSub
import SlabPool.Supply
import SlabPool.Word

/-!
The history of the calls between pools and their surroundings.

A supply answers from a state that can be anything, and nothing in that state has to say which
blocks are in use. What was lent and not handed back is a matter of the calls themselves.
`Supply.recorded` therefore keeps every call, with its answer, beside the state of the supply and
changes nothing else: a pool that runs on the recorded supply gets the answers of the supply.

`loans` reads the blocks in use off such a record. `Honest` is the promise of allocators: a block
that is lent is aligned, lies within the address space and shares no byte with a block in use.
`Faithful` is the duty of pools: only what is on loan is handed back. Neither is assumed of the
other's side. The latest call stands first in a record.
-/

namespace SlabPool

variable {α σ : Type}

/-- A block that an allocator has lent, with the layout it was asked for. -/
structure Loan (α : Type) where
  allocator : α
  block : Nat
  layout : Layout
  deriving DecidableEq

namespace Loan

/-- The block is not at address zero, aligned, and within the address space. -/
def Valid (loan : Loan α) : Prop :=
  0 < loan.block ∧ loan.layout.align ∣ loan.block ∧
    loan.block + loan.layout.size ≤ Word.modulus

instance (loan : Loan α) : Decidable loan.Valid :=
  inferInstanceAs (Decidable (_ ∧ _ ∧ _))

/-- Two blocks have no byte in common. -/
def Apart (loan other : Loan α) : Prop :=
  loan.block + loan.layout.size ≤ other.block ∨ other.block + other.layout.size ≤ loan.block

instance (loan other : Loan α) : Decidable (loan.Apart other) :=
  inferInstanceAs (Decidable (_ ∨ _))

theorem Apart.symm {loan other : Loan α} (h : loan.Apart other) : other.Apart loan :=
  Or.symm h

end Loan

/-- A call of a pool to its surroundings, with the answer. -/
inductive Call (α : Type) where
  | reserve (bytes : Nat) (granted : Bool)
  | allocate (allocator : α) (layout : Layout) (answer : Except Stop Nat)
  | release (loan : Loan α) (answer : Except Fault Unit)

namespace Call

/-- No block changes hands. -/
def Idle : Call α → Prop
  | reserve .. => True
  | allocate _ _ (.ok _) => False
  | allocate _ _ (.error _) => True
  | release .. => False

/-- The block that is lent. -/
def lent? : Call α → Option (Loan α)
  | allocate allocator layout (.ok block) => some ⟨allocator, block, layout⟩
  | _ => none

/-- The block that is handed back. -/
def returned? : Call α → Option (Loan α)
  | release loan _ => some loan
  | _ => none

/-- The call is not one to take a block back that raised a fault. -/
def quiet : Call α → Bool
  | release _ (.error _) => false
  | _ => true

end Call

/-- The state of a supply, with all calls that were made. -/
structure Recorded (α σ : Type) where
  calls : List (Call α) := []
  state : σ

/-- The same supply, with a record of the calls. -/
def Supply.recorded (S : Supply α σ) : Supply α (Recorded α σ) where
  reserve bytes record :=
    let answer := S.reserve bytes record.state
    (answer.1, ⟨.reserve bytes answer.1 :: record.calls, answer.2⟩)
  allocate allocator layout record :=
    let answer := S.allocate allocator layout record.state
    (answer.1, ⟨.allocate allocator layout answer.1 :: record.calls, answer.2⟩)
  release allocator block layout record :=
    let answer := S.release allocator block layout record.state
    (answer.1, ⟨.release ⟨allocator, block, layout⟩ answer.1 :: record.calls, answer.2⟩)

/-- All blocks that were ever lent, the latest first. -/
def lent (calls : List (Call α)) : List (Loan α) :=
  calls.filterMap Call.lent?

/-- All blocks that were ever handed back, the latest first. -/
def returned (calls : List (Call α)) : List (Loan α) :=
  calls.filterMap Call.returned?

/-- No allocator raised a fault when a block was handed back. -/
def Quiet (calls : List (Call α)) : Prop :=
  ∀ call ∈ calls, call.quiet = true

instance (calls : List (Call α)) : Decidable (Quiet calls) :=
  inferInstanceAs (Decidable (∀ call ∈ calls, _))

theorem Quiet.of_append {new calls : List (Call α)} (h : Quiet (new ++ calls)) : Quiet calls :=
  fun call hcall => h call (List.mem_append_right new hcall)

/-! ### Calls that move no block -/

/-- The record `after` goes on from `before`, and no block changed hands in between. -/
def Idle (before after : List (Call α)) : Prop :=
  ∃ new : List (Call α), after = new ++ before ∧ ∀ call ∈ new, call.Idle

theorem Idle.refl (calls : List (Call α)) : Idle calls calls :=
  ⟨[], rfl, by simp⟩

theorem Idle.cons {before after : List (Call α)} {call : Call α} (h : Idle before after)
    (hcall : call.Idle) : Idle before (call :: after) := by
  obtain ⟨new, rfl, hnew⟩ := h
  refine ⟨call :: new, rfl, ?_⟩
  intro other hother
  rcases List.mem_cons.mp hother with rfl | hother
  · exact hcall
  · exact hnew other hother

theorem Idle.trans {before middle after : List (Call α)} (h : Idle before middle)
    (h' : Idle middle after) : Idle before after := by
  obtain ⟨new, rfl, hnew⟩ := h
  obtain ⟨newer, rfl, hnewer⟩ := h'
  refine ⟨newer ++ new, (List.append_assoc ..).symm, ?_⟩
  intro call hcall
  rcases List.mem_append.mp hcall with hcall | hcall
  · exact hnewer call hcall
  · exact hnew call hcall

theorem Idle.suffix {before after : List (Call α)} (h : Idle before after) : before <:+ after := by
  obtain ⟨new, rfl, -⟩ := h
  exact List.suffix_append new before

/-- Whatever is read off a record and passes over the calls that move no block is the same before
and after. -/
theorem Idle.eq_of_skips {β : Sort*} {before after : List (Call α)} (h : Idle before after)
    (read : List (Call α) → β)
    (hreserve : ∀ bytes granted calls, read (.reserve bytes granted :: calls) = read calls)
    (hrefused : ∀ allocator layout stop calls,
      read (.allocate allocator layout (.error stop) :: calls) = read calls) :
    read after = read before := by
  obtain ⟨new, rfl, hnew⟩ := h
  induction new with
  | nil => rfl
  | cons call new ih =>
      have hrest := ih fun other hother => hnew other (by simp [hother])
      have hcall := hnew call (by simp)
      rcases call with ⟨bytes, granted⟩ | ⟨allocator, layout, stop | block⟩ | ⟨loan, answer⟩
      · exact (hreserve bytes granted _).trans hrest
      · exact (hrefused allocator layout stop _).trans hrest
      · exact hcall.elim
      · exact hcall.elim

theorem Idle.lent_eq {before after : List (Call α)} (h : Idle before after) :
    lent after = lent before :=
  h.eq_of_skips lent (fun _ _ _ => rfl) (fun _ _ _ _ => rfl)

theorem Idle.returned_eq {before after : List (Call α)} (h : Idle before after) :
    returned after = returned before :=
  h.eq_of_skips returned (fun _ _ _ => rfl) (fun _ _ _ _ => rfl)

/-! ### Handing blocks back -/

/-- The record after blocks were handed back, the first of them first. -/
def handedBack (given : List (Loan α)) (calls : List (Call α)) : List (Call α) :=
  (given.map fun loan => Call.release loan (.ok ())).reverse ++ calls

@[simp] theorem handedBack_nil (calls : List (Call α)) : handedBack [] calls = calls := rfl

@[simp] theorem handedBack_cons (loan : Loan α) (given : List (Loan α)) (calls : List (Call α)) :
    handedBack (loan :: given) calls =
      handedBack given (.release loan (.ok ()) :: calls) := by
  simp [handedBack]

theorem suffix_handedBack (given : List (Loan α)) (calls : List (Call α)) :
    calls <:+ handedBack given calls :=
  List.suffix_append _ calls

theorem lent_handedBack (given : List (Loan α)) (calls : List (Call α)) :
    lent (handedBack given calls) = lent calls := by
  induction given generalizing calls with
  | nil => rfl
  | cons loan given ih =>
      rw [handedBack_cons, ih]
      rfl

theorem returned_handedBack (given : List (Loan α)) (calls : List (Call α)) :
    returned (handedBack given calls) = given.reverse ++ returned calls := by
  induction given generalizing calls with
  | nil => rfl
  | cons loan given ih =>
      rw [handedBack_cons, ih, List.reverse_cons, List.append_assoc]
      rfl

theorem lent_append (new calls : List (Call α)) : lent (new ++ calls) = lent new ++ lent calls :=
  List.filterMap_append

theorem returned_append (new calls : List (Call α)) :
    returned (new ++ calls) = returned new ++ returned calls :=
  List.filterMap_append

/-! ### Blocks on loan -/

variable [DecidableEq α]

/-- The blocks that were lent and have not been handed back since. A block that was handed back is
gone, also where that raised a fault: nobody may rely on it any more. -/
def loans : List (Call α) → Multiset (Loan α)
  | [] => 0
  | .allocate allocator layout (.ok block) :: calls => ⟨allocator, block, layout⟩ ::ₘ loans calls
  | .release loan _ :: calls => (loans calls).erase loan
  | _ :: calls => loans calls

/-- What allocators promise of the blocks they lend. -/
def Honest : List (Call α) → Prop
  | [] => True
  | .allocate allocator layout (.ok block) :: calls =>
    (Loan.Valid ⟨allocator, block, layout⟩ ∧
      ∀ other ∈ loans calls, Loan.Apart ⟨allocator, block, layout⟩ other) ∧ Honest calls
  | _ :: calls => Honest calls

instance decidableHonest : (calls : List (Call α)) → Decidable (Honest calls)
  | [] => isTrue trivial
  | .allocate _ _ (.ok _) :: calls =>
    have := decidableHonest calls
    inferInstanceAs (Decidable ((_ ∧ _) ∧ _))
  | .allocate _ _ (.error _) :: calls => decidableHonest calls
  | .reserve .. :: calls => decidableHonest calls
  | .release .. :: calls => decidableHonest calls

/-- What pools owe: only blocks on loan are handed back, to the allocator and with the layout they
were lent by. -/
def Faithful : List (Call α) → Prop
  | [] => True
  | .release loan _ :: calls => loan ∈ loans calls ∧ Faithful calls
  | _ :: calls => Faithful calls

theorem Idle.loans_eq {before after : List (Call α)} (h : Idle before after) :
    loans after = loans before :=
  h.eq_of_skips loans (fun _ _ _ => rfl) (fun _ _ _ _ => rfl)

theorem Idle.faithful_iff {before after : List (Call α)} (h : Idle before after) :
    Faithful after ↔ Faithful before :=
  iff_of_eq (h.eq_of_skips Faithful (fun _ _ _ => rfl) (fun _ _ _ _ => rfl))

theorem Honest.of_suffix {before after : List (Call α)} (h : Honest after)
    (hsuffix : before <:+ after) : Honest before := by
  obtain ⟨new, rfl⟩ := hsuffix
  induction new with
  | nil => exact h
  | cons call new ih =>
      rcases call with _ | ⟨_, _, _ | _⟩ | _
      · exact ih h
      · exact ih h
      · exact ih h.2
      · exact ih h

theorem Honest.valid {calls : List (Call α)} (h : Honest calls) :
    ∀ loan ∈ loans calls, loan.Valid := by
  induction calls with
  | nil => simp [loans]
  | cons call calls ih =>
      intro loan hloan
      rcases call with _ | ⟨_, _, _ | _⟩ | _
      · exact ih h loan hloan
      · exact ih h loan hloan
      · rcases Multiset.mem_cons.mp hloan with rfl | hloan
        · exact h.1.1
        · exact ih h.2 loan hloan
      · exact ih h loan (Multiset.mem_of_mem_erase hloan)

omit [DecidableEq α] in
/-- Two of the elements of a multiset are two of the others, or the first is one of the two. -/
theorem pair_le_cons {x y z : Loan α} {rest : Multiset (Loan α)}
    (h : x ::ₘ {y} ≤ z ::ₘ rest) :
    x ::ₘ {y} ≤ rest ∨ (x = z ∧ y ∈ rest) ∨ (y = z ∧ x ∈ rest) := by
  by_cases hx : x = z
  · subst hx
    rw [Multiset.cons_le_cons_iff, Multiset.singleton_le] at h
    exact .inr (.inl ⟨rfl, h⟩)
  · by_cases hy : y = z
    · -- the two change places, so that the new element stands first again
      subst hy
      rw [show x ::ₘ ({y} : Multiset (Loan α)) = y ::ₘ {x} from Multiset.cons_swap x y 0,
        Multiset.cons_le_cons_iff, Multiset.singleton_le] at h
      exact .inr (.inr ⟨rfl, h⟩)
    · have hz : z ∉ x ::ₘ ({y} : Multiset (Loan α)) := by
        simp [Ne.symm hx, Ne.symm hy]
      exact .inl ((Multiset.le_cons_of_notMem hz).mp h)

/-- Blocks that are on loan at the same time have no byte in common. -/
theorem Honest.apart {calls : List (Call α)} (h : Honest calls) {loan other : Loan α}
    (hle : loan ::ₘ {other} ≤ loans calls) : loan.Apart other := by
  induction calls with
  | nil => exact absurd (Multiset.le_zero.mp hle) (Multiset.cons_ne_zero)
  | cons call calls ih =>
      rcases call with _ | ⟨allocator, layout, _ | block⟩ | _
      · exact ih h hle
      · exact ih h hle
      · -- a new block was apart from all that were on loan when it was lent
        rcases pair_le_cons hle with hle | ⟨rfl, hother⟩ | ⟨rfl, hloan⟩
        · exact ih h.2 hle
        · exact h.1.2 other hother
        · exact (h.1.2 loan hloan).symm
      · exact ih h (hle.trans (Multiset.erase_le _ _))

/-- Where only blocks on loan were handed back, every block that was lent is on loan or was handed
back, as often as it was lent. -/
theorem Faithful.lent_eq {calls : List (Call α)} (h : Faithful calls) :
    (lent calls : Multiset (Loan α)) = loans calls + (returned calls : Multiset (Loan α)) := by
  induction calls with
  | nil => rfl
  | cons call calls ih =>
      rcases call with _ | ⟨allocator, layout, _ | block⟩ | ⟨loan, answer⟩
      · exact ih h
      · exact ih h
      · have hrest := congrArg (Loan.mk allocator block layout ::ₘ ·) (ih h)
        exact hrest.trans (Multiset.cons_add _ _ _).symm
      · -- the block that comes back was on loan, so it can be taken out and put in again
        have hrest := ih h.2
        have hback : loan ::ₘ (loans calls).erase loan = loans calls := Multiset.cons_erase h.1
        calc (lent (.release loan answer :: calls) : Multiset (Loan α))
            = loans calls + (returned calls : Multiset (Loan α)) := hrest
          _ = (loan ::ₘ (loans calls).erase loan) + (returned calls : Multiset (Loan α)) := by
              rw [hback]
          _ = (loans calls).erase loan + (loan ::ₘ (returned calls : Multiset (Loan α))) := by
              rw [Multiset.cons_add, Multiset.add_cons]

theorem loans_handedBack {given : List (Loan α)} {calls : List (Call α)}
    {rest : Multiset (Loan α)} (h : loans calls = given + rest) :
    loans (handedBack given calls) = rest := by
  induction given generalizing calls with
  | nil => simpa using h
  | cons loan given ih =>
      rw [handedBack_cons]
      apply ih
      rw [loans, h, ← Multiset.cons_coe, Multiset.cons_add, Multiset.erase_cons_head]

theorem faithful_handedBack {given : List (Loan α)} {calls : List (Call α)}
    {rest : Multiset (Loan α)} (hfaithful : Faithful calls) (h : loans calls = given + rest) :
    Faithful (handedBack given calls) := by
  induction given generalizing calls with
  | nil => exact hfaithful
  | cons loan given ih =>
      rw [← Multiset.cons_coe, Multiset.cons_add] at h
      rw [handedBack_cons]
      refine ih ⟨?_, hfaithful⟩ ?_
      · rw [h]
        exact Multiset.mem_cons_self _ _
      · rw [loans, h, Multiset.erase_cons_head]

end SlabPool
