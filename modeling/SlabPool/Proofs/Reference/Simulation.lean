import Mathlib.Data.List.Forall2
import SlabPool.Proofs.Account.Custody
import SlabPool.Proofs.Reference.Backing

/-!
The pool and its machine, request by request.

`Account.Mirrors` relates an account to a state of the reference machine: the links in memory lead
through the addresses of exactly those places that the machine has on its list, in that order, and
the items in use have in them what the machine has for their places. Every permitted request keeps
the relation and is answered alike (`Account.Mirrors.serve`).

What clients write into their items does not matter for the list, since the links that count lie in
slots that are free: this is the soundness of the account, which is a part of the relation.
-/

namespace SlabPool

variable {T : ItemType} {α σ : Type}

namespace Account

/-- An item that is held by the name of a place is at that place. -/
theorem Sound.address?_resolve {account : Account T α} {memory : Memory} {free : List Nat}
    {place : Place} (h : account.Sound memory free) (hspread : account.pool.index.Spread)
    (hheld : account.resolve place ∈ account.held) :
    account.pool.index.address? place = some (account.resolve place) := by
  cases haddress : account.pool.index.address? place with
  | none =>
      have hzero : account.resolve place = 0 := by
        rw [resolve, haddress]
        rfl
      have hpos := hspread.slot_pos (h.mem_slots_of_held hheld)
      omega
  | some item =>
      rw [resolve, haddress]
      rfl

structure Mirrors (account : Account T α) (memory : Memory) (stack : StackPool T α)
    (free : List Nat) : Prop where
  sound : account.Sound memory free
  backs : stack.Backs account.pool
  places : List.Forall₂ (fun place item => account.pool.index.address? place = some item)
    stack.free free
  contents : ∀ place item, account.pool.index.address? place = some item → item ∈ account.held →
    stack.contents place = account.contents item

namespace Mirrors

variable {account : Account T α} {memory after : Memory} {stack : StackPool T α}
  {free : List Nat} {place : Place} {item : Nat}

/-- Whether a slot is free is seen from both. -/
theorem isEmpty_eq (h : account.Mirrors memory stack free) :
    account.pool.free.isEmpty = stack.free.isEmpty := by
  rw [h.sound.holds.isEmpty]
  have hplaces := h.places
  generalize stack.free = places at hplaces ⊢
  cases hplaces with
  | nil => rfl
  | cons _ _ => rfl

/-- What others do to memory is nothing to the machine, if they keep out of the slots. -/
theorem congr (h : account.Mirrors memory stack free)
    (hkeeps : ∀ item ∈ account.pool.index.slots, T.Keeps item memory after) :
    account.Mirrors after stack free where
  sound := h.sound.congr hkeeps
  backs := h.backs
  places := h.places
  contents := h.contents

theorem ne_place {other : Nat} {further : Place} (hne : other ≠ item)
    (hplace : account.pool.index.address? place = some item)
    (hfurther : account.pool.index.address? further = some other) : further ≠ place := by
  rintro rfl
  rw [hplace] at hfurther
  exact hne (Option.some.inj hfurther).symm

/-- The first free slot is taken by both. -/
theorem take (h : account.Mirrors memory stack (item :: free))
    (hspread : account.pool.index.Spread) :
    ∃ place next, stack.take = (.ok place, next) ∧
      account.pool.index.address? place = some item ∧
      Account.Mirrors
        { pool := { account.pool with
            free := ⟨memory.link item⟩
            acquired := account.pool.acquired + 1 }
          held := item :: account.held
          contents := Function.update account.contents item none } memory next free := by
  obtain ⟨place, rest, haddress, hrest, hfree⟩ := List.forall₂_cons_right_iff.mp h.places
  refine ⟨place, _, by rw [StackPool.take, hfree], haddress, h.sound.take _ rfl rfl, ?_, hrest, ?_⟩
  · obtain ⟨hallocator, hslabs, hreserved, hacquired⟩ := h.backs
    exact ⟨hallocator, hslabs, hreserved, congrArg (· + 1) hacquired⟩
  · intro further other hfurther hother
    dsimp only
    by_cases heq : other = item
    · subst heq
      rw [hspread.address?_inj hfurther haddress, Function.update_self, Function.update_self]
    · rw [Function.update_of_ne (ne_place heq haddress hfurther), Function.update_of_ne heq]
      exact h.contents further other hfurther ((List.mem_cons.mp hother).resolve_left heq)

theorem release (h : account.Mirrors memory stack free) (hspread : account.pool.index.Spread)
    (hplace : account.pool.index.address? place = some item) (hitem : item ∈ account.held) :
    Account.Mirrors
      { account with
        pool := { account.pool with free := ⟨some item⟩ }
        held := account.held.erase item }
      (memory.setLink item account.pool.free.head) (stack.release place) (item :: free) where
  sound := h.sound.release hspread hitem
  backs := ⟨h.backs.allocator, h.backs.slabs, h.backs.reserved, h.backs.acquired⟩
  places := .cons hplace h.places
  contents := fun further other hfurther hother =>
    h.contents further other hfurther (List.mem_of_mem_erase hother)

theorem enter (h : account.Mirrors memory stack free) (hspread : account.pool.index.Spread)
    (hplace : account.pool.index.address? place = some item) (hitem : item ∈ account.held)
    (hwrites : T.WritesOnly [item] memory after) {content : Option T.Value}
    (hcontent : ∀ value, content = some value → T.load after item = value) :
    Account.Mirrors { account with contents := Function.update account.contents item content }
      after (stack.enter place content) free where
  sound := h.sound.write hspread hitem hwrites hcontent
  backs := ⟨h.backs.allocator, h.backs.slabs, h.backs.reserved, h.backs.acquired⟩
  places := h.places
  contents := by
    intro further other hfurther hother
    dsimp only [StackPool.enter]
    by_cases heq : other = item
    · subst heq
      rw [hspread.address?_inj hfurther hplace, Function.update_self, Function.update_self]
    · rw [Function.update_of_ne (ne_place heq hplace hfurther), Function.update_of_ne heq]
      exact h.contents further other hfurther hother

/-- The places of a new slab lead to its slots. -/
theorem places_row {longer : SlabIndex T} {slabs : List (Slab T)} {slab : Slab T}
    (hslabs : longer.slabs = slabs ++ [slab]) :
    List.Forall₂ (fun place item => longer.address? place = some item)
      (StackPool.row slabs.length slab.capacity.val) slab.slots := by
  rw [StackPool.row, slab.slots_eq_map, List.forall₂_map_left_iff, List.forall₂_map_right_iff,
    List.forall₂_same]
  intro number hnumber
  refine SlabIndex.address?_eq_some_iff.mpr ⟨slab, ?_, List.mem_range.mp hnumber, rfl⟩
  rw [hslabs]
  exact List.getElem?_concat_length

/-- Both grow, or both fail to. -/
theorem grow (S : Supply α σ) {world : World (Recorded α σ)}
    (h : account.Mirrors world.memory stack free) (capacity : Capacity)
    (hspread : (account.pool.grow S.recorded capacity world).pool.index.Spread) :
    let turn := account.pool.grow S.recorded capacity world
    ∃ added, Account.Mirrors { account with pool := turn.pool } turn.world.memory
        (stack.grow S.recorded capacity world.supply).pool (added ++ free) ∧
      (turn.result = .ok () → added ≠ [] ∧ turn.pool.acquired = account.pool.acquired) := by
  intro turn
  have hagrees := StackPool.grow_agrees S.recorded h.backs capacity world
  have hcontents : account.pool.index.slabs <+: turn.pool.index.slabs →
      ∀ place item, turn.pool.index.address? place = some item → item ∈ account.held →
        (stack.grow S.recorded capacity world.supply).pool.contents place =
          account.contents item := by
    -- an item in use was at some place before, and is there still
    intro hgrow place item hplace hitem
    obtain ⟨former, hformer⟩ := SlabIndex.exists_address? (h.sound.mem_slots_of_held hitem)
    have hsame := hspread.address?_inj hplace (SlabIndex.address?_mono hgrow hformer)
    rw [hagrees.contents_eq, hsame]
    exact h.contents former item hformer hitem
  cases h.sound.grown (account.pool.grow_growth S capacity world) hspread with
  | failed stop hresult hslabs hmemory hsound =>
      have hgrow : account.pool.index.slabs <+: turn.pool.index.slabs := hslabs ▸ List.prefix_rfl
      have hfree := hagrees.free_of_error stop (hagrees.result_eq ▸ hresult)
      refine ⟨[], ⟨hmemory ▸ hsound, hagrees.backs, ?_, hcontents hgrow⟩, ?_⟩
      · rw [hfree]
        exact h.places.imp fun _ _ => SlabIndex.address?_mono hgrow
      · intro hok
        rw [hresult] at hok
        cases hok
  | added slab hresult hcapacity hslabs hacquired _ _ hsound =>
      have hgrow : account.pool.index.slabs <+: turn.pool.index.slabs :=
        hslabs ▸ List.prefix_append _ _
      have hfree := hagrees.free_of_ok (hagrees.result_eq ▸ hresult)
      refine ⟨slab.slots, ⟨hsound, hagrees.backs, ?_, hcontents hgrow⟩, ?_⟩
      · rw [hfree, h.backs.slabs, ← hcapacity]
        exact List.rel_append (places_row hslabs)
          (h.places.imp fun _ _ => SlabIndex.address?_mono hgrow)
      · rw [slab.slots_eq_cons]
        exact fun _ => ⟨List.cons_ne_nil _ _, hacquired⟩

/-- What acquiring an item can come to for both: it is handed out by both, or by neither. -/
inductive Acquired (account : Account T α) (turn : Turn T α (Recorded α σ) Nat)
    (answer : StackPool.Answer T α (Recorded α σ) Place) : Prop
  | failed (stop : Stop) (free : List Nat)
      (result_eq : turn.result = .error stop)
      (answer_eq : answer.result = .error stop)
      (mirrors : Account.Mirrors { account with pool := turn.pool } turn.world.memory answer.pool
        free)
  | handed (item : Nat) (place : Place) (free : List Nat)
      (result_eq : turn.result = .ok item)
      (answer_eq : answer.result = .ok place)
      (address_eq : turn.pool.index.address? place = some item)
      (mirrors : Account.Mirrors
        { pool := turn.pool
          held := item :: account.held
          contents := Function.update account.contents item none } turn.world.memory answer.pool
        free)

theorem acquire (S : Supply α σ) {world : World (Recorded α σ)}
    (h : account.Mirrors world.memory stack free) (hcount : account.pool.acquired < Word.max)
    (hspread : (account.pool.acquire S.recorded world).pool.index.Spread) :
    let turn := account.pool.acquire S.recorded world
    let answer := stack.acquire S.recorded world.supply
    turn.world.supply = answer.supply ∧ Acquired account turn answer := by
  intro turn answer
  cases free with
  | cons item free =>
      have hturn : turn = _ := Pool.acquire_of_holds S.recorded h.sound.holds hcount
      have hspread : account.pool.index.Spread := by
        rwa [Pool.acquire_of_holds S.recorded h.sound.holds hcount] at hspread
      obtain ⟨place, next, hnext, haddress, hmirrors⟩ := h.take hspread
      have hanswer : answer = _ := StackPool.acquire_of_take S.recorded hnext world.supply
      rw [hturn, hanswer]
      exact ⟨rfl, .handed item place free rfl rfl haddress hmirrors⟩
  | nil =>
      have hgrown := Pool.spread_of_acquire S.recorded h.sound.holds hspread
      obtain ⟨added, hmirrors, hadded⟩ := h.grow S account.pool.nextGrowth hgrown
      have hagrees := StackPool.grow_agrees S.recorded h.backs account.pool.nextGrowth world
      have hempty : stack.free = [] := List.forall₂_nil_right_iff.mp h.places
      have hnext := h.backs.nextGrowth_eq
      cases hresult : (account.pool.grow S.recorded account.pool.nextGrowth world).result with
      | error stop =>
          have hstop := hnext ▸ hagrees.result_eq ▸ hresult
          have hturn : turn = _ := Pool.acquire_of_failed S.recorded h.sound.holds hresult
          have hanswer : answer = _ :=
            StackPool.acquire_of_failed S.recorded hempty hstop
          rw [hturn, hanswer, hnext]
          exact ⟨hagrees.supply_eq, .failed stop _ rfl rfl hmirrors⟩
      | ok done =>
          have hok := hnext ▸ hagrees.result_eq ▸ hresult
          have hturn : turn = _ := Pool.acquire_of_added S.recorded h.sound.holds hresult
          have hanswer : answer = _ :=
            StackPool.acquire_of_added S.recorded hempty hok
          -- both take the first slot of the new slab
          rw [List.append_nil] at hmirrors
          obtain ⟨hne, hacquired⟩ := hadded hresult
          obtain ⟨item, rest, rfl⟩ := List.exists_cons_of_ne_nil hne
          obtain ⟨place, next, hfirst, haddress, hmirrors'⟩ := hmirrors.take hgrown
          have htake := Pool.take_of_holds hmirrors.sound.holds (hacquired ▸ hcount)
          rw [hturn, hanswer, hnext, hfirst, htake]
          exact ⟨hagrees.supply_eq, .handed item place rest rfl rfl haddress hmirrors'⟩

/-- Nothing is left of either. -/
theorem empty {pool : Pool T α} (hslabs : pool.index.slabs = []) (hfree : pool.free = {})
    (hbacks : stack.Backs pool) (hstack : stack.free = []) (memory : Memory) :
    Account.Mirrors ({ pool } : Account T α) memory stack [] where
  sound := by
    refine ⟨?_, ?_, by simp⟩
    · rw [hfree]
      rfl
    · simp [SlabIndex.slots, hslabs]
  backs := hbacks
  places := by
    rw [hstack]
    exact .nil
  contents := by simp

end Mirrors

end Account

end SlabPool
