import Mathlib.Dynamics.PeriodicPts.Defs
import SlabPool.Pool.Items
import SlabPool.Proofs.Misuse

/-!
Slots that are released twice.

A slot that is released while it stands on the free list comes to stand in front of it, and its
link, which led to the slots behind it, leads to the former head instead. So the way from the head
leads through the slots that stood before it and comes back to it: it runs round in a ring, of which
the length is the former position of the slot, and the slots that stood behind it are not on the way
any more. No other link is changed.

`Memory.Ring` is a list of addresses that link round in this way. On a ring the entry after any
number of steps is known (`Ring.iterate_next`), and so is the path of any length. A ring within the
slots of a pool is therefore found out by the check, whatever the number of slots is.

Main statement: `Pool.double_release_closes_ring`.
-/

namespace SlabPool

namespace Memory

variable {memory : Memory} {entry : Option Nat}

/-! ### Steps along the links -/

/-- The entry after an entry on the way along the links. Nothing comes after the end. -/
def next (memory : Memory) (entry : Option Nat) : Option Nat :=
  entry.bind memory.link

@[simp] theorem next_none : memory.next none = none := rfl

@[simp] theorem next_some (item : Nat) : memory.next (some item) = memory.link item := rfl

theorem iterate_next_none (steps : Nat) : memory.next^[steps] none = none :=
  Function.iterate_fixed rfl steps

/-- A path goes from entry to entry. -/
theorem mem_path_iff {limit item : Nat} :
    item ∈ memory.path limit entry ↔ ∃ steps < limit, memory.next^[steps] entry = some item := by
  induction limit generalizing entry with
  | zero => cases entry <;> simp [path]
  | succ limit ih =>
      cases entry with
      | none => simp [path, iterate_next_none]
      | some first =>
          rw [path, List.mem_cons, ih]
          constructor
          · rintro (rfl | ⟨steps, hsteps, heq⟩)
            · exact ⟨0, limit.succ_pos, rfl⟩
            · exact ⟨steps + 1, Nat.succ_lt_succ hsteps, heq⟩
          · rintro ⟨_ | steps, hsteps, heq⟩
            · exact .inl (Option.some.inj heq).symm
            · exact .inr ⟨steps, Nat.lt_of_succ_lt_succ hsteps, heq⟩

/-- The way ends within a limit if there is no entry after so many steps. -/
theorem endsWithin_eq_isNone (limit : Nat) :
    memory.endsWithin limit entry = (memory.next^[limit] entry).isNone := by
  induction limit generalizing entry with
  | zero => cases entry <;> rfl
  | succ limit ih =>
      cases entry with
      | none => rw [iterate_next_none]; rfl
      | some item => exact ih

theorem Chain.entry_eq {items : List Nat} (h : memory.Chain entry items) :
    entry = items[0]? := by
  cases items with
  | nil => exact h
  | cons item items => exact h.1

/-- On a chain, each item links to the one behind it. -/
theorem Chain.link_getElem {items : List Nat} (h : memory.Chain entry items) {k : Nat}
    (hk : k < items.length) : memory.link items[k] = items[k + 1]? := by
  induction items generalizing entry k with
  | nil => exact absurd hk (Nat.not_lt_zero k)
  | cons item items ih =>
      obtain ⟨-, hrest⟩ := h
      cases k with
      | zero => exact hrest.entry_eq
      | succ k => exact ih hrest (Nat.lt_of_succ_lt_succ hk)

/-! ### Rings -/

/-- Each of the items links to the one behind it, and the last one to the first. -/
def Ring (memory : Memory) (items : List Nat) : Prop :=
  ∀ k (hk : k < items.length), memory.link items[k] = items[(k + 1) % items.length]?

namespace Ring

variable {items : List Nat}

theorem iterate_next (h : memory.Ring items) (steps : Nat) :
    memory.next^[steps] items[0]? = items[steps % items.length]? := by
  induction steps with
  | zero => rw [Nat.zero_mod]; rfl
  | succ steps ih =>
      rw [Function.iterate_succ_apply', ih]
      cases items with
      | nil => rfl
      | cons first items =>
          have hlt : steps % (first :: items).length < (first :: items).length :=
            Nat.mod_lt _ (Nat.succ_pos _)
          rw [List.getElem?_eq_getElem hlt, next_some, h _ hlt, Nat.mod_add_mod]

theorem minimalPeriod_next (h : memory.Ring items) (hne : items ≠ []) (hnodup : items.Nodup) :
    Function.minimalPeriod memory.next items[0]? = items.length := by
  have hpos : 0 < items.length := List.length_pos_of_ne_nil hne
  have hround : Function.IsPeriodicPt memory.next items.length items[0]? := by
    rw [Function.IsPeriodicPt, Function.IsFixedPt, h.iterate_next, Nat.mod_self]
  refine Nat.le_antisymm (hround.minimalPeriod_le hpos) ?_
  -- an earlier return would find the first item a second time
  by_contra hshort
  have hlt : Function.minimalPeriod memory.next items[0]? < items.length := Nat.not_le.mp hshort
  have hreturn := Function.iterate_minimalPeriod (f := memory.next) (x := items[0]?)
  rw [h.iterate_next, Nat.mod_eq_of_lt hlt] at hreturn
  have hzero := (List.getElem?_inj hpos hnodup).mp hreturn.symm
  exact absurd (hround.minimalPeriod_pos hpos) (by omega)

theorem mem_of_iterate_next (h : memory.Ring items) {steps item : Nat}
    (hitem : memory.next^[steps] items[0]? = some item) : item ∈ items := by
  rw [h.iterate_next] at hitem
  exact List.mem_of_getElem? hitem

theorem path_subset (h : memory.Ring items) (limit : Nat) :
    memory.path limit items[0]? ⊆ items := by
  intro item hitem
  obtain ⟨steps, -, hsteps⟩ := mem_path_iff.mp hitem
  exact h.mem_of_iterate_next hsteps

theorem endsWithin_eq_false (h : memory.Ring items) (hne : items ≠ []) (limit : Nat) :
    memory.endsWithin limit items[0]? = false := by
  have hlt : limit % items.length < items.length :=
    Nat.mod_lt _ (List.length_pos_of_ne_nil hne)
  rw [endsWithin_eq_isNone, h.iterate_next, List.getElem?_eq_getElem hlt]
  rfl

end Ring

/-- An item of a chain that is linked to the beginning of the chain makes a ring of the items up to
it, with itself in front. -/
theorem Chain.ring_setLink {items : List Nat} (h : memory.Chain entry items)
    (hzero : entry ≠ some 0) {k : Nat} (hk : k < items.length)
    (hne : ∀ item ∈ items.take k, items[k] / 8 ≠ item / 8) :
    (memory.setLink items[k] entry).Ring (items[k] :: items.take k) := by
  have hlength : (items[k] :: items.take k).length = k + 1 := by
    rw [List.length_cons, List.length_take_of_le hk.le]
  intro j hj
  rw [hlength] at hj ⊢
  cases j with
  | zero =>
      rw [List.getElem_cons_zero, link_setLink_self memory _ hzero, h.entry_eq]
      cases k with
      | zero => exact List.getElem?_eq_getElem hk
      | succ k =>
          rw [Nat.mod_eq_of_lt (by omega), List.getElem?_cons_succ,
            List.getElem?_take_of_lt k.succ_pos]
  | succ j =>
      have hjk : j < k := Nat.lt_of_succ_lt_succ hj
      have hmem : items[j] ∈ items.take k := List.mem_take_iff_getElem.mpr ⟨j, by omega, rfl⟩
      rw [List.getElem_cons_succ, List.getElem_take, link_setLink_of_ne (hne _ hmem),
        h.link_getElem (by omega)]
      by_cases hlast : j + 1 = k
      · -- the last item before it links to it, and it stands in front now
        subst hlast
        rw [Nat.mod_self, List.getElem?_eq_getElem hk]
        rfl
      · rw [Nat.mod_eq_of_lt (by omega), List.getElem?_cons_succ,
          List.getElem?_take_of_lt (by omega)]

end Memory

/-! ### Pools -/

namespace Pool

variable {T : ItemType} {α σ : Type} {pool : Pool T α}

/-- A free list that runs round within the slots of the pool is found out by the check. -/
theorem check_of_ring (hspread : pool.index.Spread) {memory : Memory} {items : List Nat}
    (hring : memory.Ring items) (hne : items ≠ []) (hhead : pool.free.head = items[0]?)
    (hslots : items ⊆ pool.index.slots) :
    pool.check memory = .error (.endlessList T.name pool.capacity) := by
  refine (check_eq_error_iff hspread).mpr (.inr ⟨?_, rfl⟩)
  rw [overlong_iff hspread, firstForeign?_eq_none_iff hspread, hhead]
  exact ⟨List.Subset.trans (hring.path_subset _) hslots, hring.endsWithin_eq_false hne _⟩

/-- Let a slot be released while it stands on the free list, behind `k` others. Then the way from
the head leads through it and those `k` slots round and round, with the period `k + 1` and no
shorter one, and never to a slot that stood behind it. One word of memory is written, and the check
finds the ring. -/
theorem double_release_closes_ring (hspread : pool.index.Spread) (world : World σ)
    (items : List Nat) (hholds : pool.free.Holds world.memory items)
    (hslots : items ⊆ pool.index.slots) (k : Nat) (hk : k < items.length) :
    let turn := pool.release items[k] world
    let ring := items[k] :: items.take k
    turn.world.memory.Ring ring ∧
    (∀ steps, turn.world.memory.next^[steps] turn.pool.free.head = ring[steps % (k + 1)]?) ∧
    Function.minimalPeriod turn.world.memory.next turn.pool.free.head = k + 1 ∧
    (∀ item ∈ items.drop (k + 1), ∀ steps,
      turn.world.memory.next^[steps] turn.pool.free.head ≠ some item) ∧
    (∀ address, address / 8 ≠ items[k] / 8 →
      turn.world.memory.read address = world.memory.read address) ∧
    turn.pool.check turn.world.memory = .error (.endlessList T.name pool.capacity) ∧
    ∀ address, Fault.message address (.endlessList T.name pool.capacity) =
      "free list of pool of " ++ T.name ++ " has more entries than the pool has capacity (" ++
        toString pool.capacity ++ "), so it contains a cycle (was an item released twice?)" := by
  intro turn ring
  have hnodup : items.Nodup := Memory.Chain.nodup hholds
  have hlength : ring.length = k + 1 := by
    rw [List.length_cons, List.length_take_of_le hk.le]
  -- the ring consists of the items up to the one that is released, which has come to the front
  have hperm : ring.Perm (items.take (k + 1)) := by
    rw [List.take_succ_eq_append_getElem hk]
    exact (List.perm_append_singleton _ _).symm
  have hsubset : ring ⊆ items := List.Subset.trans hperm.subset (List.take_subset (k + 1) items)
  have hdistinct : ring.Nodup := hperm.nodup_iff.mpr (hnodup.sublist (List.take_sublist _ _))
  have hring : turn.world.memory.Ring ring := by
    refine Memory.Chain.ring_setLink hholds ?_ hk ?_
    · exact hholds.head_ne_zero fun item hmem => (hspread.slot_pos (hslots hmem)).ne'
    · intro item hmem
      have hne : items[k] ≠ item := fun heq => (List.nodup_cons.mp hdistinct).1 (heq ▸ hmem)
      exact hspread.cell_ne (hslots (List.mem_of_mem_take hmem))
        (hspread.eight_dvd_slot (hslots (List.getElem_mem hk))) hne
  refine ⟨hring, ?_, ?_, ?_, ?_, ?_, fun _ => rfl⟩
  · exact fun steps => hlength ▸ hring.iterate_next steps
  · exact (hring.minimalPeriod_next (List.cons_ne_nil _ _) hdistinct).trans hlength
  · intro item hmem steps hreached
    have hbefore : item ∈ items.take (k + 1) :=
      hperm.mem_iff.mp (hring.mem_of_iterate_next hreached)
    exact List.disjoint_take_drop hnodup (Nat.le_refl _) hbefore hmem
  · exact fun address hne => Memory.read_write_of_ne hne.symm _ _
  · have hspread' : turn.pool.index.Spread := hspread
    exact check_of_ring hspread' hring (List.cons_ne_nil _ _) rfl
      (List.Subset.trans hsubset hslots)

/-- Three slots, all of them free. -/
def threeFree : Pool Kind.pair.itemType Unit where
  allocator := ()
  index := { slabs := [⟨4096, ⟨3, by decide⟩⟩], reserved := 4 }
  free := ⟨some 4096⟩

/-- The slot in the middle is released again. -/
theorem double_release_of_threeFree :
    let memory := (Memory.setLink {} 4096 (some 4112)).setLink 4112 (some 4128)
    let turn := threeFree.release 4112 (⟨memory, ()⟩ : World Unit)
    turn.world.memory.Ring [4112, 4096] ∧
      turn.pool.check turn.world.memory = .error (.endlessList "[u64; 2]" 3) := by
  intro memory turn
  have hspread : threeFree.index.Spread := by
    refine ⟨?_, ?_, ?_, List.pairwise_singleton _ _⟩
    · decide
    · decide
    · decide
  have hholds : threeFree.free.Holds memory [4096, 4112, 4128] := ⟨rfl, rfl, rfl, rfl⟩
  obtain ⟨hring, -, -, -, -, hcheck, -⟩ := double_release_closes_ring hspread
    (⟨memory, ()⟩ : World Unit) _ hholds (by decide) 1 (by decide)
  exact ⟨hring, hcheck⟩

end Pool

end SlabPool
