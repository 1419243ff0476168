import SlabPool.Proofs.Chronicle
import SlabPool.Proofs.Refusals

/-!
Room in the list of slabs.

What can become of a list of slabs is little: room is made in it, a slab is added, it is begun anew,
or it is emptied by an end of all slabs that was broken off. `SlabIndex.Lasting` has one condition
for each of these, and a property that meets them holds of the lists of all pools at every point of
every run, with no contract of anybody (`Estate.Lists.run`).

Room is not made where there is some, and what was made is kept. The list therefore never holds more
slabs than there is room for, and all of that room was granted by the heap at some time before:
`SlabIndex.Housed` says so of one pool, and it lasts.
-/

namespace SlabPool

variable {ι α σ : Type}

section

variable {T : ItemType}

/-! ### What lasts of a list -/

namespace SlabIndex

/-- A property of lists of slabs and of the calls made so far that nothing ends. Of a list, a pool
makes a longer one with room for it, or only makes room, or begins a new one, and an end of all
slabs that is broken off leaves the list empty with its room. -/
structure Lasting (P : (T : ItemType) → SlabIndex T → List (Call α) → Prop) : Prop where
  empty : ∀ (T : ItemType) (calls : List (Call α)), P T {} calls
  mono : ∀ {T : ItemType} {index : SlabIndex T} {calls after : List (Call α)},
    P T index calls → calls <:+ after → P T index after
  roomy : ∀ {T : ItemType} {index : SlabIndex T} {calls : List (Call α)},
    P T index calls → P T index.roomy (index.roomCalls ++ calls)
  append : ∀ {T : ItemType} {index : SlabIndex T} {calls : List (Call α)} {slab : Slab T},
    P T index calls → slab.Fits → P T (index.roomy.append slab) (index.roomCalls ++ calls)
  halted : ∀ {T : ItemType} {index : SlabIndex T} {calls after : List (Call α)},
    P T index calls → calls <:+ after →
      ((∀ slab ∈ index.slabs, slab.Fits) → ¬ Quiet after) → P T { index with slabs := [] } after

namespace Lasting

variable {P : (T : ItemType) → SlabIndex T → List (Call α) → Prop}

theorem grow (hP : Lasting P) (S : Supply α σ) {pool : Pool T α} (capacity : Capacity)
    {world : World (Recorded α σ)} (h : P T pool.index world.supply.calls) :
    P T (pool.grow S.recorded capacity world).pool.index
      (pool.grow S.recorded capacity world).world.supply.calls := by
  by_cases hrefused : pool.index.Refused S world.supply.state
  · obtain ⟨-, hpool, hcalls, -⟩ := Pool.grow_of_refused capacity hrefused
    rw [hpool, hcalls]
    exact hP.mono h (List.suffix_cons _ _)
  · by_cases hsize : T.size * capacity.val ≤ Layout.maxSize T.align
    · obtain ⟨answer, hcalls, hfailed, hlent⟩ := Pool.grow_of_layout hrefused hsize
      rw [hcalls]
      cases answer with
      | error stop =>
          rw [(hfailed stop rfl).2.1]
          exact hP.mono (hP.roomy h) (List.suffix_cons _ _)
      | ok block =>
          have hfits : (⟨block, capacity⟩ : Slab T).Fits := hsize
          rw [(hlent block rfl).2.1]
          exact hP.mono (hP.append h hfits) (List.suffix_cons _ _)
    · obtain ⟨-, hpool, hcalls, -⟩ := Pool.grow_of_oversized hrefused (Nat.not_le.mp hsize)
      rw [hpool, hcalls]
      exact hP.roomy h

theorem destroy (hP : Lasting P) (S : Supply α σ) {pool : Pool T α}
    {world : World (Recorded α σ)} (h : P T pool.index world.supply.calls) :
    P T (pool.destroy S.recorded world).pool.index
      (pool.destroy S.recorded world).world.supply.calls := by
  cases hresult : (pool.destroy S.recorded world).result with
  | ok done =>
      rw [Pool.destroy_of_ok S.recorded hresult]
      exact hP.empty T _
  | error stop =>
      rw [Pool.destroy_of_error S.recorded hresult]
      refine hP.halted h (pool.suffix_destroy S world) ?_
      intro hfits hquiet
      obtain ⟨result, hsame, hback⟩ := pool.handBack_destroy S hfits world
      rw [hresult, hback.result_eq_of_quiet hquiet] at hsame
      cases hsame

theorem build (hP : Lasting P) (S : Supply α σ) {plan : Blueprint α}
    {world : World (Recorded α σ)} {pool : Pool T α}
    (h : (plan.build S.recorded T world).result = .ok pool) :
    P T pool.index (plan.build S.recorded T world).world.supply.calls := by
  cases hinitial : plan.initial with
  | none =>
      simp only [Blueprint.build, hinitial] at h ⊢
      cases h
      exact hP.empty T _
  | some capacity =>
      have hnew : P T (Pool.index ({ allocator := plan.allocator } : Pool T α))
          world.supply.calls := hP.empty T _
      simp only [Blueprint.build, hinitial] at h ⊢
      cases hresult : (Pool.grow S.recorded ({ allocator := plan.allocator } : Pool T α) capacity
          world).result with
      | error stop =>
          rw [hresult] at h
          cases h
      | ok done =>
          rw [hresult] at h
          cases h
          exact hP.grow S capacity hnew

theorem serve (hP : Lasting P) (S : Supply α σ) {account : Account T α}
    {world : World (Recorded α σ)} (h : P T account.pool.index world.supply.calls)
    (request : Request T Nat) :
    P T (account.serve S.recorded world request).account.pool.index
      (account.serve S.recorded world request).world.supply.calls := by
  cases hdemand : account.pool.demand? request with
  | some capacity =>
      have hdemanding := account.serve_of_demand S.recorded world hdemand
      rw [hdemanding.index_eq, hdemanding.supply_eq]
      exact hP.grow S capacity h
  | none =>
      by_cases hdestroy : request = .destroy
      · subst hdestroy
        exact hP.destroy S h
      · rw [(account.serve_of_no_demand S.recorded world hdemand hdestroy).2]
        exact hP.mono h (account.suffix_serve S world request)

end Lasting

end SlabIndex

end

/-! ### Runs -/

variable {T : ι → ItemType}

namespace Estate

variable {estate : Estate T α σ}

/-- The property holds of the lists of slabs of all pools. -/
def Lists (P : (T : ItemType) → SlabIndex T → List (Call α) → Prop) (estate : Estate T α σ) :
    Prop :=
  ∀ i account, estate.accounts i = some account → P (T i) account.pool.index estate.calls

namespace Lists

variable {P : (T : ItemType) → SlabIndex T → List (Call α) → Prop}

theorem start (memory : Memory) (state : σ) :
    (Estate.start memory state : Estate T α σ).Lists P := by
  intro i account h
  cases h

variable [DecidableEq ι]

theorem put (hP : SlabIndex.Lasting P) (h : estate.Lists P) {i : ι} {world : World (Recorded α σ)}
    {account : Option (Account (T i) α)} (hsuffix : estate.calls <:+ world.supply.calls)
    (hown : ∀ after, account = some after → P (T i) after.pool.index world.supply.calls) :
    (estate.put i world account).Lists P := by
  intro j other hother
  by_cases hj : j = i
  · subst hj
    rw [accounts_put_self] at hother
    exact hown other hother
  · rw [accounts_put_of_ne _ _ _ _ hj] at hother
    exact hP.mono (h j other hother) hsuffix

theorem step (hP : SlabIndex.Lasting P) (S : Supply α σ) (h : estate.Lists P)
    (action : Action T α) : (estate.step S action).Lists P := by
  have hsuffix := estate.suffix_step S action
  generalize hafter : estate.step S action = after at hsuffix
  have hstepped := hafter ▸ estate.stepped S action
  cases hstepped with
  | skipped | disturbed => exact h
  | built i plan reply pool _ hreply hresult =>
      refine h.put hP hsuffix ?_
      rintro _ ⟨⟩
      subst hreply
      exact hP.build S hresult
  | unbuilt i plan reply stop _ _ _ => exact h.put hP hsuffix nofun
  | served i account request served hfound hserved =>
      refine h.put hP hsuffix ?_
      rintro _ ⟨⟩
      subst hserved
      exact hP.serve S (h i account hfound) request
  | dropped i account reply _ _ => exact h.put hP hsuffix nofun

theorem run (hP : SlabIndex.Lasting P) (S : Supply α σ) (h : estate.Lists P)
    (actions : List (Action T α)) : (estate.run S actions).Lists P := by
  induction actions generalizing estate with
  | nil => exact h
  | cons action actions ih => exact ih (h.step hP S action)

end Lists

end Estate

/-! ### Lists that are housed -/

namespace SlabIndex

/-- There is room for all slabs of the list, and the heap has granted it. -/
structure Housed {T : ItemType} (index : SlabIndex T) (calls : List (Call α)) : Prop where
  length_le : index.slabs.length ≤ index.reserved
  granted : index.reserved = 0 ∨ Call.reserve (entrySize * index.reserved) true ∈ calls

namespace Housed

variable {T : ItemType} {index : SlabIndex T} {calls after : List (Call α)}

theorem mono (h : index.Housed calls) (hsuffix : calls <:+ after) : index.Housed after :=
  ⟨h.length_le, h.granted.imp_right fun hmem => hsuffix.subset hmem⟩

theorem length_lt_roomy (h : index.Housed calls) : index.slabs.length < index.roomy.reserved := by
  have hle := h.length_le
  unfold roomy
  split
  · assumption
  · simp only [nextReserved]
    omega

theorem roomy (h : index.Housed calls) : index.roomy.Housed (index.roomCalls ++ calls) := by
  refine ⟨?_, ?_⟩
  · rw [slabs_roomy]
    exact h.length_lt_roomy.le
  · unfold SlabIndex.roomy roomCalls
    split
    · exact h.granted
    · exact .inr List.mem_cons_self

theorem append_roomy (h : index.Housed calls) (slab : Slab T) :
    (index.roomy.append slab).Housed (index.roomCalls ++ calls) := by
  refine ⟨?_, h.roomy.granted⟩
  rw [append, slabs_roomy, List.length_append]
  exact h.length_lt_roomy

theorem lasting : Lasting fun _ index (calls : List (Call α)) => index.Housed calls where
  empty _ _ := ⟨Nat.le_refl 0, .inl rfl⟩
  mono := mono
  roomy := roomy
  append h _ := h.append_roomy _
  halted h hsuffix _ := ⟨Nat.zero_le _, (h.mono hsuffix).granted⟩

end Housed

end SlabIndex

namespace Estate

variable {estate : Estate T α σ}

def Housed (estate : Estate T α σ) : Prop :=
  ∀ i account, estate.accounts i = some account → account.pool.index.Housed estate.calls

theorem Housed.start (memory : Memory) (state : σ) :
    Housed (Estate.start memory state : Estate T α σ) :=
  Lists.start memory state

theorem Housed.run [DecidableEq ι] (S : Supply α σ) (h : estate.Housed)
    (actions : List (Action T α)) : (estate.run S actions).Housed :=
  Lists.run SlabIndex.Housed.lasting S h actions

end Estate

end SlabPool
