import Mathlib.Data.List.Dedup
import SlabPool.Proofs.Account.Stock
import SlabPool.Proofs.Chronicle
import SlabPool.Proofs.Doubling
import SlabPool.Proofs.Health
import SlabPool.Proofs.Reuse

/-!
The order in which slots are used for the first time.

The free list is a mixture. Slots that came back lie on it in any order, on top of slots that nobody
has had yet, and new slabs are put on top of both. What stays in order is the part of a slab that
was never used: its slots lie on the free list in one row, lowest first, and nothing gets in between
them, because slots are put on the list and taken off it at one end only.

`Slab.UsedUpTo` says that of a slab, together with what it means for the past: the slots that were
used, in the order in which each was used for the first time, are the first slots of the slab.
Taking a slot either takes the first of such a row or touches no row (`Slab.UsedUpTo.take`), and a
row that is covered stays one. Which slots were used is not known to the pool; `Estate.used` reads
it off a run.

A row that is not used up keeps the free list from being empty. So a pool turns to its surroundings
for a slot only after all of its slots have been used.

Main statement: `Estate.first_use_order`.
-/

namespace SlabPool

variable {ι α σ : Type}

section

variable {T : ItemType}

/-! ### One slab -/

namespace Slab

variable {slab : Slab T} {free longer used : List Nat} {item count : Nat}

/-- The slots of the slab that were used, in the order in which each was used for the first time. Of
all slots that were used, the latest stands first. -/
def firstUses (slab : Slab T) (used : List Nat) : List Nat :=
  used.dedup.reverse.filter (· ∈ slab.slots)

theorem mem_firstUses : item ∈ slab.firstUses used ↔ item ∈ used ∧ item ∈ slab.slots := by
  simp [firstUses]

theorem firstUses_cons_of_mem (h : item ∈ used) :
    slab.firstUses (item :: used) = slab.firstUses used := by
  rw [firstUses, List.dedup_cons_of_mem h, firstUses]

theorem firstUses_cons_of_foreign (h : item ∉ slab.slots) :
    slab.firstUses (item :: used) = slab.firstUses used := by
  by_cases hmem : item ∈ used
  · exact firstUses_cons_of_mem hmem
  · rw [firstUses, List.dedup_cons_of_notMem hmem, List.reverse_cons, List.filter_append,
      List.filter_singleton]
    simp [h, firstUses]

theorem firstUses_cons_of_new (hnew : item ∉ used) (h : item ∈ slab.slots) :
    slab.firstUses (item :: used) = slab.firstUses used ++ [item] := by
  rw [firstUses, List.dedup_cons_of_notMem hnew, List.reverse_cons, List.filter_append,
    List.filter_singleton]
  simp [h, firstUses]

theorem firstUses_eq_nil (h : ∀ item ∈ used, item ∉ slab.slots) : slab.firstUses used = [] := by
  refine List.eq_nil_iff_forall_not_mem.mpr fun item hitem => ?_
  obtain ⟨hused, hslot⟩ := mem_firstUses.mp hitem
  exact h item hused hslot

/-- So many slots of the slab were used, the lowest ones, for the first time in their order. The
others are free and lie in a row. -/
structure UsedUpTo (slab : Slab T) (free used : List Nat) (count : Nat) : Prop where
  count_le : count ≤ slab.capacity.val
  firstUses_eq : slab.firstUses used = slab.slots.take count
  row : slab.slots.drop count <:+: free

namespace UsedUpTo

theorem mono (h : slab.UsedUpTo free used count) (hlonger : free <:+: longer) :
    slab.UsedUpTo longer used count :=
  ⟨h.count_le, h.firstUses_eq, h.row.trans hlonger⟩

theorem new (h : ∀ item ∈ used, item ∉ slab.slots) :
    slab.UsedUpTo (slab.slots ++ free) used 0 where
  count_le := Nat.zero_le _
  firstUses_eq := firstUses_eq_nil h
  row := (List.prefix_append slab.slots free).isInfix

/-- A slot that was not used yet is not among those that were. -/
theorem notMem_used (h : slab.UsedUpTo free used count) (hitem : item ∈ slab.slots.drop count) :
    item ∉ used := by
  intro hused
  have hmem : item ∈ slab.firstUses used := mem_firstUses.mpr ⟨hused, List.mem_of_mem_drop hitem⟩
  rw [h.firstUses_eq] at hmem
  exact List.disjoint_take_drop slab.slots_nodup (Nat.le_refl count) hmem hitem

/-- The first of the free slots is in the row, so it is the first of the row. -/
theorem take_of_mem (h : slab.UsedUpTo (item :: free) used count) (hnodup : (item :: free).Nodup)
    (hitem : item ∈ slab.slots.drop count) : slab.UsedUpTo free (item :: used) (count + 1) := by
  have hfront : slab.slots.drop count <+: item :: free := by
    rcases List.infix_cons_iff.mp h.row with hfront | hbehind
    · exact hfront
    · exact absurd (hbehind.subset hitem) (List.nodup_cons.mp hnodup).1
  have hlt : count < slab.slots.length := by
    by_contra hge
    rw [List.drop_eq_nil_of_le (Nat.not_lt.mp hge)] at hitem
    cases hitem
  rw [List.drop_eq_getElem_cons hlt, List.cons_prefix_cons] at hfront
  obtain ⟨hfirst, hrest⟩ := hfront
  refine ⟨?_, ?_, hrest.isInfix⟩
  · rwa [Slab.slots, FreeList.length_row] at hlt
  · rw [firstUses_cons_of_new (h.notMem_used hitem) (List.mem_of_mem_drop hitem), h.firstUses_eq,
      List.take_succ_eq_append_getElem hlt, hfirst]

/-- The first of the free slots is not in the row. If it is one of the slab, it was used before. -/
theorem take_of_notMem (h : slab.UsedUpTo (item :: free) used count)
    (hitem : item ∉ slab.slots.drop count) : slab.UsedUpTo free (item :: used) count := by
  refine ⟨h.count_le, ?_, ?_⟩
  · by_cases hslot : item ∈ slab.slots
    · have hused : item ∈ slab.firstUses used := by
        rw [← List.take_append_drop count slab.slots] at hslot
        rw [h.firstUses_eq]
        exact (List.mem_append.mp hslot).resolve_right hitem
      rw [firstUses_cons_of_mem (mem_firstUses.mp hused).1, h.firstUses_eq]
    · rw [firstUses_cons_of_foreign hslot, h.firstUses_eq]
  · rcases List.infix_cons_iff.mp h.row with hfront | hbehind
    · obtain hnone | ⟨rest, hrest, -⟩ := List.prefix_cons_iff.mp hfront
      · rw [hnone]
        exact List.nil_infix
      · exact absurd (hrest ▸ List.mem_cons_self) hitem
    · exact hbehind

theorem take (h : slab.UsedUpTo (item :: free) used count) (hnodup : (item :: free).Nodup) :
    ∃ count, slab.UsedUpTo free (item :: used) count := by
  by_cases hitem : item ∈ slab.slots.drop count
  · exact ⟨count + 1, h.take_of_mem hnodup hitem⟩
  · exact ⟨count, h.take_of_notMem hitem⟩

/-- Where nothing is free, all slots were used. -/
theorem slots_subset (h : slab.UsedUpTo [] used count) : slab.slots ⊆ used := by
  have hall : slab.slots.take count = slab.slots :=
    List.take_of_length_le (List.drop_eq_nil_iff.mp (List.infix_nil.mp h.row))
  intro item hitem
  rw [← hall, ← h.firstUses_eq] at hitem
  exact (mem_firstUses.mp hitem).1

/-- The slots that were used are those below the count. -/
theorem slot_mem_iff (h : slab.UsedUpTo free used count) {number : Nat}
    (hnumber : number < slab.capacity.val) : slab.slot number ∈ used ↔ number < count := by
  have hslot : slab.slot number ∈ slab.slots := mem_slots.mpr ⟨number, hnumber, rfl⟩
  have hfirst : slab.slot number ∈ used ↔ slab.slot number ∈ slab.slots.take count := by
    rw [← h.firstUses_eq, mem_firstUses, and_iff_left hslot]
  rw [hfirst, slots_eq_map, ← List.map_take, List.take_range, List.mem_map]
  constructor
  · rintro ⟨other, hother, heq⟩
    obtain rfl : other = number :=
      Nat.eq_of_mul_eq_mul_right T.size_pos (Nat.add_left_cancel heq)
    exact (Nat.lt_min.mp (List.mem_range.mp hother)).1
  · intro hlt
    exact ⟨number, List.mem_range.mpr (Nat.lt_min.mpr ⟨hlt, hnumber⟩), rfl⟩

end UsedUpTo

end Slab

/-! ### All slabs of a pool -/

namespace SlabIndex

/-- Every slab is used in order, and nothing but slots was used. -/
structure InOrder (index : SlabIndex T) (free used : List Nat) : Prop where
  subset : used ⊆ index.slots
  usedUpTo : ∀ slab ∈ index.slabs, ∃ count, slab.UsedUpTo free used count

namespace InOrder

variable {index after : SlabIndex T} {free longer used : List Nat} {item : Nat}

theorem empty (h : index.slabs = []) (free : List Nat) : index.InOrder free [] where
  subset := List.nil_subset _
  usedUpTo := by simp [h]

theorem congr (h : index.InOrder free used) (hslabs : after.slabs = index.slabs) :
    after.InOrder free used := by
  refine ⟨?_, hslabs ▸ h.usedUpTo⟩
  rw [slots, hslabs]
  exact h.subset

theorem mono (h : index.InOrder free used) (hlonger : free <:+: longer) :
    index.InOrder longer used := by
  refine ⟨h.subset, fun slab hslab => ?_⟩
  obtain ⟨count, hcount⟩ := h.usedUpTo slab hslab
  exact ⟨count, hcount.mono hlonger⟩

theorem take (h : index.InOrder (item :: free) used) (hnodup : (item :: free).Nodup)
    (hitem : item ∈ index.slots) : index.InOrder free (item :: used) := by
  refine ⟨List.cons_subset.mpr ⟨hitem, h.subset⟩, fun slab hslab => ?_⟩
  obtain ⟨count, hcount⟩ := h.usedUpTo slab hslab
  exact hcount.take hnodup

theorem grow (h : index.InOrder free used) {slab : Slab T}
    (hslabs : after.slabs = index.slabs ++ [slab]) (hnodup : after.slots.Nodup) :
    after.InOrder (slab.slots ++ free) used := by
  have hslots : after.slots = index.slots ++ slab.slots := by
    rw [slots, hslabs, List.flatMap_append, List.flatMap_singleton]
    rfl
  refine ⟨?_, ?_⟩
  · rw [hslots]
    exact List.subset_append_of_subset_left _ h.subset
  · rw [hslabs, List.forall_mem_append, List.forall_mem_singleton]
    refine ⟨fun other hother => ?_, 0, .new fun item hused hslot => ?_⟩
    · obtain ⟨count, hcount⟩ := h.usedUpTo other hother
      exact ⟨count, hcount.mono (List.suffix_append slab.slots free).isInfix⟩
    · rw [hslots] at hnodup
      exact (List.disjoint_of_nodup_append hnodup) (h.subset hused) hslot

/-- Where nothing is free, all slots were used. -/
theorem slots_subset (h : index.InOrder [] used) : index.slots ⊆ used := by
  intro item hitem
  obtain ⟨slab, hslab, hmem⟩ := mem_slots.mp hitem
  obtain ⟨count, hcount⟩ := h.usedUpTo slab hslab
  exact hcount.slots_subset hmem

end InOrder

end SlabIndex

/-! ### Requests -/

namespace Account

variable {account : Account T α} {memory : Memory} {free used : List Nat}

/-- The account is sound, and its slots were used in order. -/
def UsedInOrder (account : Account T α) (memory : Memory) (used : List Nat) : Prop :=
  ∃ free, account.Sound memory free ∧ account.pool.index.InOrder free used

theorem UsedInOrder.congr {after : Memory} (h : account.UsedInOrder memory used)
    (hkeeps : ∀ item ∈ account.pool.index.slots, T.Keeps item memory after) :
    account.UsedInOrder after used := by
  obtain ⟨free, hsound, horder⟩ := h
  exact ⟨free, hsound.congr hkeeps, horder⟩

theorem Restocked.usedInOrder {served : Served T α (Recorded α σ)}
    (h : account.Restocked free served) (hsound : account.Sound memory free)
    (horder : account.pool.index.InOrder free used)
    (hspread : served.account.pool.index.Spread) :
    served.account.UsedInOrder served.world.memory (Outcome.handed served.result ++ used) := by
  cases h with
  | still hhanded hslabs hafter =>
      rw [hhanded]
      exact ⟨free, hafter, horder.congr hslabs⟩
  | taken item rest hfree hhanded hslabs hafter =>
      subst hfree
      rw [hhanded]
      have hslot : item ∈ account.pool.index.slots := hsound.mem_slots_of_free List.mem_cons_self
      exact ⟨rest, hafter, (horder.take (Memory.Chain.nodup hsound.holds) hslot).congr hslabs⟩
  | opened slab rest hfree hslots hhanded hslabs hafter =>
      subst hfree
      rw [hhanded]
      -- the slab is added first, and then its first slot is taken
      have hgrown := horder.grow hslabs hspread.slots_nodup
      have hnodup := slab.slots_nodup
      have hslot : slab.first ∈ served.account.pool.index.slots := by
        refine SlabIndex.mem_slots.mpr ⟨slab, by simp [hslabs], ?_⟩
        rw [hslots]
        exact List.mem_cons_self
      rw [List.append_nil, hslots] at hgrown
      rw [hslots] at hnodup
      exact ⟨rest, hafter, hgrown.take hnodup hslot⟩
  | returned item hhanded hslabs hafter =>
      rw [hhanded]
      exact ⟨_, hafter, (horder.mono (List.suffix_cons item free).isInfix).congr hslabs⟩
  | added slab hhanded hslabs hafter =>
      rw [hhanded]
      exact ⟨_, hafter, horder.grow hslabs hspread.slots_nodup⟩

theorem UsedInOrder.serve (S : Supply α σ) {world : World (Recorded α σ)}
    {request : Request T Nat} (h : account.UsedInOrder world.memory used)
    (hne : request ≠ .destroy) (hcounted : account.PermitsCounted request)
    (hspread : account.pool.index.Spread)
    (hspread' : (account.serve S.recorded world request).account.pool.index.Spread) :
    let served := account.serve S.recorded world request
    served.account.UsedInOrder served.world.memory (Outcome.handed served.result ++ used) := by
  obtain ⟨free, hsound, horder⟩ := h
  exact (hsound.restocked S hne hcounted hspread hspread').usedInOrder hsound horder hspread'

/-- A pool without slots has none that could be used. -/
theorem usedInOrder_of_emptied (hslabs : account.pool.index.slabs = [])
    (hhead : account.pool.free.head = none) (hheld : account.held = []) :
    account.UsedInOrder memory [] := by
  refine ⟨[], ⟨hhead, ?_, ?_⟩, .empty hslabs []⟩
  · simp [hheld, SlabIndex.slots, hslabs]
  · simp [hheld]

/-- Apart from growth and the end of all slabs, only a request for a slot turns to the surroundings
or reports anything. -/
theorem takes_of_calls_or_events (S : Supply α σ) {world : World (Recorded α σ)}
    {request : Request T Nat} (hgrow : ∀ capacity, request ≠ .grow capacity)
    (hdestroy : request ≠ .destroy)
    (h : (account.serve S.recorded world request).world.supply.calls ≠ world.supply.calls ∨
      (account.serve S.recorded world request).events ≠ []) : request.takes = true := by
  by_contra htakes
  have hdemand : account.pool.demand? request = none := by
    cases request with
    | acquire | insert => exact absurd rfl htakes
    | grow capacity => exact absurd rfl (hgrow capacity)
    | release | remove | check | destroy | read | write | scribble => rfl
  have hsupply := account.supply_of_no_demand S.recorded world hdemand hdestroy
  obtain hcalls | hevents := h
  · exact hcalls (congrArg (·.calls) hsupply)
  · exact hevents (account.serve_of_no_demand S.recorded world hdemand hdestroy).1

/-- While there is a free slot, a request for a slot does neither. -/
theorem Sound.free_eq_nil_of_calls_or_events (S : Supply α σ) {world : World (Recorded α σ)}
    {free : List Nat} (hsound : account.Sound world.memory free) {request : Request T Nat}
    (htakes : request.takes = true) (hcounted : account.PermitsCounted request)
    (h : (account.serve S.recorded world request).world.supply.calls ≠ world.supply.calls ∨
      (account.serve S.recorded world request).events ≠ []) : free = [] := by
  cases free with
  | nil => rfl
  | cons item free =>
      obtain ⟨-, hevents, hsupply⟩ := hsound.serve_of_free S.recorded world htakes hcounted
      obtain hcalls | hreported := h
      · exact absurd (congrArg (·.calls) hsupply) hcalls
      · exact absurd hevents hreported

end Account

/-- The slots of a new pool were not used yet. -/
theorem Blueprint.Built.usedInOrder {plan : Blueprint α} {world : World (Recorded α σ)}
    {reply : Reply (Recorded α σ) (Pool T α)} (h : plan.Built world reply) {pool : Pool T α}
    (hresult : reply.result = .ok pool) (hspread : pool.index.Spread) :
    Account.UsedInOrder { pool } reply.world.memory [] := by
  have hnew := Account.sound_new (T := T) plan.allocator world.memory
  have hempty : SlabIndex.InOrder ({} : SlabIndex T) [] [] := .empty rfl []
  obtain ⟨rfl, hworld⟩ | ⟨capacity, turn, hgrowth, rfl, hworld⟩ := h.of_ok hresult
  · rw [hworld]
    exact ⟨[], hnew, hempty⟩
  · rw [hworld]
    cases hnew.grown hgrowth hspread with
    | failed stop _ hslabs hmemory hsound =>
        rw [hmemory]
        exact ⟨[], hsound, hempty.congr hslabs⟩
    | added slab _ _ hslabs _ _ _ hsound =>
        exact ⟨_, hsound, hempty.grow hslabs hspread.slots_nodup⟩

end

/-! ### Runs -/

namespace Estate

variable {T : ι → ItemType}

/-- Where there is the pool `i`, its slots were used in order. -/
def UsedInOrder (estate : Estate T α σ) (i : ι) (used : List Nat) : Prop :=
  match estate.accounts i with
  | none => used = []
  | some account => account.UsedInOrder estate.world.memory used

theorem usedInOrder_of_none {estate : Estate T α σ} {i : ι} (h : estate.accounts i = none)
    {used : List Nat} : estate.UsedInOrder i used ↔ used = [] := by
  rw [UsedInOrder, h]

theorem usedInOrder_of_some {estate : Estate T α σ} {i : ι} {account : Account (T i) α}
    (h : estate.accounts i = some account) {used : List Nat} :
    estate.UsedInOrder i used ↔ account.UsedInOrder estate.world.memory used := by
  rw [UsedInOrder, h]

variable [DecidableEq ι]

/-- The slots of the pool `i` that an action hands out. -/
def handed (S : Supply α σ) (i : ι) (estate : Estate T α σ) (action : Action T α) : List Nat :=
  match estate.told S action with
  | none => []
  | some ⟨j, told⟩ => if j = i then Outcome.handed told.result else []

/-- The slots of the pool `i` that were handed out since its slabs were last given back, after one
more action. -/
def usedAfter (S : Supply α σ) (i : ι) (estate : Estate T α σ) (used : List Nat)
    (action : Action T α) : List Nat :=
  if action.Clears i then [] else estate.handed S i action ++ used

/-- The slots of the pool `i` that were handed out since its slabs were last given back, after a
run. The latest stands first. -/
def used (S : Supply α σ) (i : ι) : Estate T α σ → List Nat → List (Action T α) → List Nat
  | _, earlier, [] => earlier
  | estate, earlier, action :: actions =>
    (estate.step S action).used S i (estate.usedAfter S i earlier action) actions

theorem used_concat (S : Supply α σ) (i : ι) (estate : Estate T α σ) (earlier : List Nat)
    (actions : List (Action T α)) (action : Action T α) :
    estate.used S i earlier (actions ++ [action]) =
      (estate.run S actions).usedAfter S i (estate.used S i earlier actions) action := by
  induction actions generalizing estate earlier with
  | nil => rfl
  | cons first actions ih => exact ih _ _

section

variable {S : Supply α σ} {i : ι} {estate : Estate T α σ} {action : Action T α}
  {earlier : List Nat}

theorem usedAfter_of_clears (h : action.Clears i) : estate.usedAfter S i earlier action = [] :=
  if_pos h

theorem usedAfter_of_not_clears (h : ¬ action.Clears i) :
    estate.usedAfter S i earlier action = estate.handed S i action ++ earlier :=
  if_neg h

@[simp] theorem handed_build (j : ι) (plan : Blueprint α) :
    estate.handed S i (.build j plan) = [] := by
  cases hfound : estate.accounts j with
  | none => simp [handed, told, hfound]
  | some account => simp [handed, told, hfound]

theorem handed_use_of_none {request : Request (T i) Nat} (h : estate.accounts i = none) :
    estate.handed S i (.use i request) = [] := by
  simp [handed, told, h]

theorem handed_use_of_some {request : Request (T i) Nat} {account : Account (T i) α}
    (h : estate.accounts i = some account) :
    estate.handed S i (.use i request) =
      Outcome.handed (account.serve S.recorded estate.world request).result := by
  simp [handed, told, h]

theorem handed_of_ne (h : ¬ action.About i) : estate.handed S i action = [] := by
  rw [handed]
  split
  · rfl
  · next htold =>
      refine if_neg ?_
      rintro rfl
      exact h (about_of_told S htold)

end

variable [Fintype ι] [DecidableEq α] {estate : Estate T α σ}

namespace UsedInOrder

variable {i : ι} {earlier : List Nat}

theorem build (S : Supply α σ) (hbalanced : estate.Balanced) (h : estate.UsedInOrder i earlier)
    {plan : Blueprint α} (hhonest : Honest (estate.step S (.build i plan)).calls) :
    (estate.step S (.build i plan)).UsedInOrder i
      (estate.usedAfter S i earlier (.build i plan)) := by
  have hbalanced' := hbalanced.step S (.build i plan)
  rw [usedAfter_of_not_clears id, handed_build, List.nil_append]
  cases hfound : estate.accounts i with
  | some own =>
      simp only [Estate.step, hfound]
      exact h
  | none =>
      obtain rfl := (usedInOrder_of_none hfound).mp h
      have hbuilt := Blueprint.build_built (T := T i) S plan estate.world
      simp only [Estate.step, hfound] at hhonest hbalanced' ⊢
      cases hresult : (plan.build S.recorded (T i) estate.world).result with
      | error stop =>
          exact (usedInOrder_of_none (by rw [accounts_put_self]; rfl)).mpr rfl
      | ok pool =>
          rw [hresult] at hhonest hbalanced'
          rw [usedInOrder_of_some (by rw [accounts_put_self]; rfl)]
          exact hbuilt.usedInOrder hresult (hbalanced'.spread hhonest (accounts_put_self ..))

theorem use (S : Supply α σ) (hbalanced : estate.Balanced) (h : estate.UsedInOrder i earlier)
    {request : Request (T i) Nat} (hcounted : estate.PermitsCounted (.use i request))
    (hhonest : Honest (estate.step S (.use i request)).calls) :
    (estate.step S (.use i request)).UsedInOrder i
      (estate.usedAfter S i earlier (.use i request)) := by
  have hbalanced' := hbalanced.step S (.use i request)
  have hbefore := hhonest.of_suffix (estate.suffix_step S _)
  cases hfound : estate.accounts i with
  | none =>
      obtain rfl := (usedInOrder_of_none hfound).mp h
      have hnone : estate.usedAfter S i [] (.use i request) = [] := by
        rw [usedAfter, handed_use_of_none hfound]
        exact ite_self []
      rw [hnone]
      simp only [Estate.step, hfound]
      exact h
  | some account =>
      have hown := (usedInOrder_of_some hfound).mp h
      have hspread := hbalanced.spread hbefore hfound
      have hafter := accounts_step_use S hfound request
      rw [usedInOrder_of_some hafter, world_step_use S hfound]
      by_cases hdestroy : request = .destroy
      · subst hdestroy
        have hclears : (Action.use i .destroy : Action T α).Clears i := ⟨rfl, rfl⟩
        rw [usedAfter_of_clears hclears]
        obtain ⟨hslabs, hhead⟩ := account.pool.emptied_destroy S.recorded estate.world
        exact Account.usedInOrder_of_emptied hslabs hhead rfl
      · have hclears : ¬ (Action.use i request : Action T α).Clears i := fun h => hdestroy h.2
        rw [usedAfter_of_not_clears hclears, handed_use_of_some hfound]
        exact hown.serve S hdestroy (hcounted account hfound) hspread
          (hbalanced'.spread hhonest hafter)

theorem step (S : Supply α σ) (hbalanced : estate.Balanced) (hcovered : estate.Covered)
    (h : estate.UsedInOrder i earlier) {action : Action T α}
    (hcounted : estate.PermitsCounted action)
    (hhonest : Honest (estate.step S action).calls) :
    (estate.step S action).UsedInOrder i (estate.usedAfter S i earlier action) := by
  by_cases hi : action.About i
  · cases action with
    | build j plan =>
        obtain rfl : j = i := hi
        exact h.build S hbalanced hhonest
    | use j request =>
        obtain rfl : j = i := hi
        exact h.use S hbalanced hcounted hhonest
    | drop j =>
        obtain rfl : j = i := hi
        have hclears : (Action.drop j : Action T α).Clears j := rfl
        rw [usedAfter_of_clears hclears, usedInOrder_of_none]
        cases hfound : estate.accounts j with
        | none => simp only [Estate.step, hfound]
        | some own => simp only [Estate.step, hfound, accounts_put_self]
    | elsewhere => exact hi.elim
  · -- the slots of the pool keep their bytes, and none of them is handed out
    rw [usedAfter_of_not_clears fun hclears => hi (Action.about_of_clears hclears),
      handed_of_ne hi, List.nil_append]
    obtain ⟨hsame, hkeeps⟩ := hcovered.keeps_step S hbalanced hcounted.permits hhonest hi
    cases hfound : estate.accounts i with
    | none =>
        rw [hfound] at hsame
        exact (usedInOrder_of_none hsame).mpr ((usedInOrder_of_none hfound).mp h)
    | some account =>
        rw [hfound] at hsame
        rw [slots_of_some hfound] at hkeeps
        exact (usedInOrder_of_some hsame).mpr (((usedInOrder_of_some hfound).mp h).congr hkeeps)

theorem run (S : Supply α σ) {memory : Memory} {state : σ} {actions : List (Action T α)}
    (hlawful : (start memory state).LawfulCounted S actions)
    (hhonest : Honest ((start memory state).run S actions).calls) (i : ι) :
    ((start memory state).run S actions).UsedInOrder i
      ((start memory state).used S i [] actions) := by
  have hstart : Balanced (start memory state : Estate T α σ) := .start memory state
  induction actions using List.reverseRecOn with
  | nil => exact (usedInOrder_of_none rfl).mpr rfl
  | append_singleton earlier action ih =>
      obtain ⟨hearlier, hcounted, -⟩ := lawfulBy_append.mp hlawful
      rw [run_append] at hhonest
      have hbefore := hhonest.of_suffix (suffix_run S _ [action])
      have hcovered :=
        (Covered.start memory state).run S hstart (LawfulCounted.lawful hearlier) hbefore
      rw [run_append, used_concat]
      exact (ih hearlier hbefore).step S (hstart.run S earlier) hcovered hcounted hhonest

end UsedInOrder

/-- At any point of a run in which clients keep their contract and acquisitions can be counted, the
slots of each slab that were never used are the last ones of the slab, stand in a row in the free
list, and come into use in the order in which they lie in the slab. Before a request for a slot
makes a call or reports anything, which it does only to get storage, all slots were used. -/
theorem first_use_order (S : Supply α σ) (memory : Memory) (state : σ)
    (actions : List (Action T α)) (hlawful : (start memory state).LawfulCounted S actions)
    (hhonest : Honest ((start memory state).run S actions).calls) (i : ι)
    (account : Account (T i) α)
    (hfound : ((start memory state).run S actions).accounts i = some account) :
    let estate := (start memory state).run S actions
    let used := (start memory state).used S i [] actions
    (∃ free, account.pool.free.Holds estate.world.memory free ∧
      ∀ slab ∈ account.pool.index.slabs, ∃ count ≤ slab.capacity.val,
        slab.firstUses used = slab.slots.take count ∧
        (∀ number < slab.capacity.val, slab.slot number ∈ used ↔ number < count) ∧
        slab.slots.drop count <:+: free) ∧
    ∀ request, (∀ capacity, request ≠ .grow capacity) → request ≠ .destroy →
      account.PermitsCounted request →
      let served := account.serve S.recorded estate.world request
      (served.world.supply.calls ≠ estate.calls ∨ served.events ≠ []) →
      account.pool.index.slots ⊆ used := by
  intro estate used
  have hrun := UsedInOrder.run S hlawful hhonest i
  obtain ⟨free, hsound, horder⟩ := (usedInOrder_of_some hfound).mp hrun
  refine ⟨⟨free, hsound.holds, ?_⟩, ?_⟩
  · intro slab hslab
    obtain ⟨count, hcount⟩ := horder.usedUpTo slab hslab
    exact ⟨count, hcount.count_le, hcount.firstUses_eq, fun _ => hcount.slot_mem_iff, hcount.row⟩
  · intro request hgrow hdestroy hcounted served hasks
    have htakes := Account.takes_of_calls_or_events S hgrow hdestroy hasks
    obtain rfl := hsound.free_eq_nil_of_calls_or_events S htakes hcounted hasks
    exact horder.slots_subset

/-- A pool of three slots grows by two while one slot was not used yet, and slots come back in
between. -/
def mixedUses : List (Action (fun _ : Bool => Kind.pair.itemType) Collaborator) :=
  [.build true { allocator := {}, initial := some 3 },
    .use true .acquire,
    .use true (.insert (Kind.pair.fit [6, 7])),
    .use true (.release 4096),
    .use true (.grow 2),
    .use true .acquire,
    .use true (.remove 4112),
    .use true .acquire,
    .use true .acquire,
    .use true .acquire,
    .use true .acquire]

theorem first_use_order_of_mixedUses :
    let used := (start {} {}).used Host.supply true [] mixedUses
    used = [4128, 4096, 4160, 4112, 4144, 4112, 4096] ∧
      (⟨4096, 3⟩ : Slab Kind.pair.itemType).firstUses used = [4096, 4112, 4128] ∧
      ∃ account, ((start {} {}).run Host.supply mixedUses).accounts true = some account ∧
        account.pool.index.slots ⊆ used := by
  have hfound : (((start {} {}).run Host.supply mixedUses).accounts true).isSome := by
    decide +kernel
  have hnext : ∀ account ∈ ((start {} {}).run Host.supply mixedUses).accounts true,
      account.pool.index.slabs = [⟨4096, 3⟩, ⟨4144, 2⟩] ∧ account.PermitsCounted .acquire ∧
      (account.serve Host.supply.recorded ((start {} {}).run Host.supply mixedUses).world
        .acquire).world.supply.calls.length ≠
          ((start {} {}).run Host.supply mixedUses).calls.length := by
    decide +kernel
  obtain ⟨hslabs, hcounted, hcalls⟩ := hnext _ (Option.some_get hfound).symm
  obtain ⟨⟨free, -, hrows⟩, hall⟩ := first_use_order Host.supply {} {} mixedUses (by decide +kernel)
    (by decide +kernel) true _ (Option.some_get hfound).symm
  have hused := hall .acquire nofun nofun hcounted (.inl fun h => hcalls (congrArg List.length h))
  obtain ⟨count, hle, hfirst, hcount, -⟩ := hrows ⟨4096, 3⟩ (hslabs ▸ List.mem_cons_self)
  refine ⟨by decide +kernel, ?_, _, (Option.some_get hfound).symm, hused⟩
  have hle : count ≤ 3 := hle
  have hlast : 2 < count := (hcount 2 (by decide)).mp (by decide +kernel)
  obtain rfl : count = 3 := by omega
  exact hfirst

end Estate

end SlabPool
