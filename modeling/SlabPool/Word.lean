/-!
# Sixty-four bit arithmetic

Addresses, sizes and counts are natural numbers throughout the library, so that arithmetic on them
is ordinary arithmetic. The width of a machine word is a rule that single operations apply. This
module states the three answers an operation can give when its result is too large for a word: it
can refuse (`checkedAdd`), stop at the largest word (`saturatingMul`) or keep the remainder
(`wrappingMul`).

The lemmas say when each of them agrees with the operation on natural numbers.
-/

namespace SlabPool.Word

def modulus : Nat := 18446744073709551616

/-- The largest word. -/
def max : Nat := 18446744073709551615

/-- The sum, if it is a word. -/
def checkedAdd (a b : Nat) : Option Nat :=
  if a + b < modulus then some (a + b) else none

def checkedSub (a b : Nat) : Option Nat :=
  if b ≤ a then some (a - b) else none

def total (ns : List Nat) : Nat :=
  ns.foldr (· + ·) 0

/-- The sum of a list, if no sum on the way to it leaves the words. -/
def checkedSum (ns : List Nat) : Option Nat :=
  ns.foldlM checkedAdd 0

/-- The sum, or the largest word if the sum is none. -/
def saturatingAdd (a b : Nat) : Nat :=
  min (a + b) max

/-- The product, or the largest word if the product is none. -/
def saturatingMul (a b : Nat) : Nat :=
  min (a * b) max

/-- The remainder of the product by the number of words. -/
def wrappingMul (a b : Nat) : Nat :=
  a * b % modulus

@[simp] theorem checkedAdd_eq_some_iff {a b c : Nat} :
    checkedAdd a b = some c ↔ a + b = c ∧ c < modulus := by
  unfold checkedAdd
  split <;> simp <;> omega

@[simp] theorem checkedAdd_eq_none_iff {a b : Nat} :
    checkedAdd a b = none ↔ modulus ≤ a + b := by
  simp [checkedAdd]

@[simp] theorem checkedSub_eq_some_iff {a b c : Nat} :
    checkedSub a b = some c ↔ b ≤ a ∧ a = b + c := by
  unfold checkedSub
  split <;> simp <;> omega

@[simp] theorem checkedSub_eq_none_iff {a b : Nat} :
    checkedSub a b = none ↔ a < b := by
  simp [checkedSub]

/-- A product that is a word is not changed by wrapping. -/
theorem wrappingMul_eq {a b : Nat} (h : a * b < modulus) : wrappingMul a b = a * b :=
  Nat.mod_eq_of_lt h

@[simp] theorem total_nil : total [] = 0 := rfl

@[simp] theorem total_cons (n : Nat) (ns : List Nat) : total (n :: ns) = n + total ns := rfl

@[simp] theorem total_append (ns ms : List Nat) : total (ns ++ ms) = total ns + total ms := by
  induction ns with
  | nil => simp
  | cons n ns ih => simp [ih, Nat.add_assoc]

private theorem foldlM_checkedAdd (ns : List Nat) (start : Nat) (hstart : start < modulus) :
    ns.foldlM checkedAdd start =
      if start + total ns < modulus then some (start + total ns) else none := by
  induction ns generalizing start with
  | nil => simp [hstart]
  | cons n ns ih =>
    rw [List.foldlM_cons, total_cons]
    by_cases hn : start + n < modulus
    · rw [checkedAdd_eq_some_iff.2 ⟨rfl, hn⟩, ← Nat.add_assoc]
      exact ih (start + n) hn
    · rw [checkedAdd_eq_none_iff.2 (by omega), if_neg (by omega)]
      rfl

/-- Sums on the way only grow, so the last of them decides. -/
theorem checkedSum_eq (ns : List Nat) :
    checkedSum ns = if total ns < modulus then some (total ns) else none := by
  simpa [checkedSum] using foldlM_checkedAdd ns 0 (by decide)

end SlabPool.Word
