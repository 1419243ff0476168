import SlabPool.Proofs.Account.Uncounted
import SlabPool.Proofs.Concert
import SlabPool.Proofs.Reference.Simulation

/-!
Twins.

Two accounts are twins if nobody can tell their pools apart who names slots by their places: the
slabs have the same sizes, the free slots are at the same places in the same order, and the values
in items at the same places are the same. Where the blocks lie and what memory holds besides is of
no account. It does not matter in particular what is in a block that has just been lent, because the
links in it are written before any of them is read, and `Account.Sound` is all that is known of
links.

A slot is handed out, taken back, written into, or slabs are added: each of these keeps twins twins.
-/

namespace SlabPool

variable {T : ItemType} {α σ τ : Type}

/-! ### Slots at the same place -/

namespace SlabIndex

/-- The two slots are at the same place in their lists of slabs. -/
def Matches (index index' : SlabIndex T) (item item' : Nat) : Prop :=
  ∃ place, index.address? place = some item ∧ index'.address? place = some item'

variable {index index' longer longer' : SlabIndex T} {item item' other other' : Nat} {place : Place}

theorem mem_slots_of_address? (h : index.address? place = some item) : item ∈ index.slots := by
  obtain ⟨slab, hslab, hlt, rfl⟩ := address?_eq_some_iff.mp h
  exact mem_slots.mpr ⟨slab, List.mem_of_getElem? hslab, Slab.mem_slots.mpr ⟨_, hlt, rfl⟩⟩

/-- Lists of slabs of the same sizes have the same places. -/
theorem exists_address?_of_capacities (hcapacities : index'.capacities = index.capacities)
    (h : index.address? place = some item) : ∃ item', index'.address? place = some item' := by
  obtain ⟨slab, hslab, hlt, -⟩ := address?_eq_some_iff.mp h
  have hsize : index'.capacities[place.slab]? = some slab.capacity.val := by
    rw [hcapacities, SlabIndex.capacities, List.getElem?_map, hslab, Option.map_some]
  rw [SlabIndex.capacities, List.getElem?_map, Option.map_eq_some_iff] at hsize
  obtain ⟨slab', hslab', hcapacity⟩ := hsize
  exact ⟨_, address?_eq_some_iff.mpr ⟨slab', hslab', hcapacity ▸ hlt, rfl⟩⟩

namespace Matches

theorem symm (h : index.Matches index' item item') : index'.Matches index item' item := by
  obtain ⟨place, hplace, hplace'⟩ := h
  exact ⟨place, hplace', hplace⟩

theorem mem_slots (h : index.Matches index' item item') : item ∈ index.slots := by
  obtain ⟨place, hplace, -⟩ := h
  exact mem_slots_of_address? hplace

theorem eq (hspread : index.Spread) (h : index.Matches index' item item')
    (h' : index.Matches index' item other') : other' = item' := by
  obtain ⟨place, hplace, hplace'⟩ := h
  obtain ⟨further, hfurther, hfurther'⟩ := h'
  rw [hspread.address?_inj hfurther hplace, hplace'] at hfurther'
  exact (Option.some.inj hfurther').symm

theorem ne (hspread' : index'.Spread) (h : index.Matches index' item item')
    (h' : index.Matches index' other other') (hne : other ≠ item) : other' ≠ item' := by
  rintro rfl
  exact hne (h.symm.eq hspread' h'.symm)

theorem mono (hgrow : index.slabs <+: longer.slabs) (hgrow' : index'.slabs <+: longer'.slabs)
    (h : index.Matches index' item item') : longer.Matches longer' item item' := by
  obtain ⟨place, hplace, hplace'⟩ := h
  exact ⟨place, address?_mono hgrow hplace, address?_mono hgrow' hplace'⟩

/-- A slot that was there before matches what it matched before. -/
theorem of_longer (hspread : longer.Spread) (hgrow : index.slabs <+: longer.slabs)
    (hgrow' : index'.slabs <+: longer'.slabs) (hcapacities : index'.capacities = index.capacities)
    (h : longer.Matches longer' item item') (hitem : item ∈ index.slots) :
    index.Matches index' item item' := by
  obtain ⟨place, hplace, hplace'⟩ := h
  obtain ⟨former, hformer⟩ := exists_address? hitem
  obtain rfl := hspread.address?_inj hplace (address?_mono hgrow hformer)
  obtain ⟨other, hother⟩ := exists_address?_of_capacities hcapacities hformer
  rw [address?_mono hgrow' hother] at hplace'
  cases hplace'
  exact ⟨place, hformer, hother⟩

theorem locate?_eq (hspread : index.Spread) (hspread' : index'.Spread)
    (h : index.Matches index' item item') : index'.locate? item' = index.locate? item := by
  obtain ⟨place, hplace, hplace'⟩ := h
  rw [hspread.locate?_eq_some hplace, hspread'.locate?_eq_some hplace']

end Matches

/-- The slots of two slabs of one size match, if as many slabs stand before each. -/
theorem matches_slots {slabs slabs' : List (Slab T)} {slab slab' : Slab T}
    (hslabs : longer.slabs = slabs ++ [slab]) (hslabs' : longer'.slabs = slabs' ++ [slab'])
    (hlength : slabs'.length = slabs.length) (hcapacity : slab'.capacity = slab.capacity) :
    List.Forall₂ (longer.Matches longer') slab.slots slab'.slots := by
  rw [slab.slots_eq_map, slab'.slots_eq_map, hcapacity, List.forall₂_map_left_iff,
    List.forall₂_map_right_iff, List.forall₂_same]
  intro number hnumber
  have hlt := List.mem_range.mp hnumber
  refine ⟨⟨slabs.length, number⟩, ?_, ?_⟩
  · refine address?_eq_some_iff.mpr ⟨slab, ?_, hlt, rfl⟩
    rw [hslabs]
    exact List.getElem?_concat_length
  · refine address?_eq_some_iff.mpr ⟨slab', ?_, hcapacity ▸ hlt, rfl⟩
    rw [hslabs', ← hlength]
    exact List.getElem?_concat_length

end SlabIndex

/-! ### Accounts -/

/-- Growth does not count as an acquisition. -/
theorem Pool.Growth.acquired_eq {pool : Pool T α} {capacity : Capacity}
    {world : World (Recorded α σ)} {turn : Turn T α (Recorded α σ) Unit}
    (h : pool.Growth capacity world turn) : turn.pool.acquired = pool.acquired := by
  cases h with
  | failed _ _ _ hpool _ _ => rw [hpool]
  | added _ _ _ _ _ _ _ _ hpool _ _ => rw [hpool]

namespace Account

/-- Both accounts are sound, and what there is to be seen by places is the same in both. -/
structure Twins (account account' : Account T α) (memory memory' : Memory)
    (free free' : List Nat) : Prop where
  left : account.Sound memory free
  right : account'.Sound memory' free'
  build : account.pool.SameBuild account'.pool
  acquired_eq : account'.pool.acquired = account.pool.acquired
  free_matches : List.Forall₂ (account.pool.index.Matches account'.pool.index) free free'
  contents_eq : ∀ item item', account.pool.index.Matches account'.pool.index item item' →
    item ∈ account.held → account'.contents item' = account.contents item

namespace Twins

variable {account account' : Account T α} {memory memory' after after' : Memory}
  {free free' : List Nat} {item item' : Nat}

/-- An item is held by both, or free in both. -/
theorem mem_held (h : account.Twins account' memory memory' free free')
    (hspread : account.pool.index.Spread) (hspread' : account'.pool.index.Spread)
    (hmatch : account.pool.index.Matches account'.pool.index item item')
    (hitem : item ∈ account.held) : item' ∈ account'.held := by
  have hslot := h.right.perm.mem_iff.mpr hmatch.symm.mem_slots
  refine (List.mem_append.mp hslot).resolve_left fun hfree => ?_
  obtain ⟨position, hposition, rfl⟩ := List.mem_iff_getElem.mp hfree
  have hlength := h.free_matches.length_eq
  have hother := h.free_matches.get (hlength ▸ hposition) hposition
  have heq := hmatch.symm.eq hspread' hother.symm
  have hmem : item ∈ free := heq ▸ List.getElem_mem _
  exact (h.left.free_apart_held hspread hmem hitem).ne rfl

theorem hasFree_eq (h : account.Twins account' memory memory' free free') :
    account'.pool.hasFree = account.pool.hasFree := by
  rw [Pool.hasFree, Pool.hasFree, h.left.holds.isEmpty, h.right.holds.isEmpty]
  cases h.free_matches with
  | nil => rfl
  | cons _ _ => rfl

/-- The items that both clients have at a place match. -/
theorem matches_resolve (h : account.Twins account' memory memory' free free')
    (hspread : account.pool.index.Spread) {place : Place}
    (hheld : account.resolve place ∈ account.held) :
    account.pool.index.Matches account'.pool.index (account.resolve place)
      (account'.resolve place) := by
  have hplace := h.left.address?_resolve hspread hheld
  obtain ⟨item', hplace'⟩ :=
    SlabIndex.exists_address?_of_capacities h.build.capacities_eq hplace
  refine ⟨place, hplace, ?_⟩
  rw [resolve, hplace']
  rfl

/-- Nothing is left of either, but the pools. -/
theorem empty {pool pool' : Pool T α} (hbuild : pool.SameBuild pool')
    (hslabs : pool.index.slabs = []) (hfree : pool.free = {}) (hfree' : pool'.free = {})
    (hacquired : pool'.acquired = pool.acquired) (memory memory' : Memory) :
    Twins ({ pool } : Account T α) { pool := pool' } memory memory' [] [] := by
  have hslabs' : pool'.index.slabs = [] := by
    have hcapacities := hbuild.capacities_eq
    simp only [Pool.capacities, SlabIndex.capacities, hslabs, List.map_nil,
      List.map_eq_nil_iff] at hcapacities
    exact hcapacities
  have hsound : ∀ {pool : Pool T α} (memory : Memory), pool.index.slabs = [] → pool.free = {} →
      Account.Sound ({ pool } : Account T α) memory [] := by
    intro pool memory hslabs hfree
    refine ⟨by rw [hfree]; rfl, ?_, by simp⟩
    simp [SlabIndex.slots, hslabs]
  exact ⟨hsound memory hslabs hfree, hsound memory' hslabs' hfree', hbuild, hacquired, .nil,
    by simp⟩

/-- The first free slot of both is taken. -/
theorem take (h : account.Twins account' memory memory' (item :: free) (item' :: free'))
    (hspread : account.pool.index.Spread) (hspread' : account'.pool.index.Spread) (count : Nat) :
    Twins
      { pool := { account.pool with free := ⟨memory.link item⟩, acquired := count }
        held := item :: account.held
        contents := Function.update account.contents item none }
      { pool := { account'.pool with free := ⟨memory'.link item'⟩, acquired := count }
        held := item' :: account'.held
        contents := Function.update account'.contents item' none } memory memory' free free' := by
  obtain ⟨hmatch, hrest⟩ := List.forall₂_cons.mp h.free_matches
  refine ⟨h.left.take _ rfl rfl, h.right.take _ rfl rfl, ⟨h.build.allocator_eq,
    h.build.capacities_eq, h.build.reserved_eq⟩, rfl, hrest, ?_⟩
  intro other other' hother hmem
  dsimp only
  by_cases heq : other = item
  · subst heq
    rw [hmatch.eq hspread hother, Function.update_self, Function.update_self]
  · rw [Function.update_of_ne heq, Function.update_of_ne (hmatch.ne hspread' hother heq)]
    exact h.contents_eq other other' hother ((List.mem_cons.mp hmem).resolve_left heq)

theorem release (h : account.Twins account' memory memory' free free')
    (hspread : account.pool.index.Spread) (hspread' : account'.pool.index.Spread)
    (hmatch : account.pool.index.Matches account'.pool.index item item')
    (hitem : item ∈ account.held) :
    Twins
      { account with
        pool := { account.pool with free := ⟨some item⟩ }
        held := account.held.erase item }
      { account' with
        pool := { account'.pool with free := ⟨some item'⟩ }
        held := account'.held.erase item' }
      (memory.setLink item account.pool.free.head) (memory'.setLink item' account'.pool.free.head)
      (item :: free) (item' :: free') where
  left := h.left.release hspread hitem
  right := h.right.release hspread' (h.mem_held hspread hspread' hmatch hitem)
  build := ⟨h.build.allocator_eq, h.build.capacities_eq, h.build.reserved_eq⟩
  acquired_eq := h.acquired_eq
  free_matches := .cons hmatch h.free_matches
  contents_eq := fun other other' hother hmem =>
    h.contents_eq other other' hother (List.mem_of_mem_erase hmem)

/-- The same comes to be in both of two items that match. -/
theorem enter (h : account.Twins account' memory memory' free free')
    (hspread : account.pool.index.Spread) (hspread' : account'.pool.index.Spread)
    (hmatch : account.pool.index.Matches account'.pool.index item item')
    (hitem : item ∈ account.held) (hwrites : T.WritesOnly [item] memory after)
    (hwrites' : T.WritesOnly [item'] memory' after') {content : Option T.Value}
    (hcontent : ∀ value, content = some value → T.load after item = value)
    (hcontent' : ∀ value, content = some value → T.load after' item' = value) :
    Twins { account with contents := Function.update account.contents item content }
      { account' with contents := Function.update account'.contents item' content }
      after after' free free' where
  left := h.left.write hspread hitem hwrites hcontent
  right := h.right.write hspread' (h.mem_held hspread hspread' hmatch hitem) hwrites' hcontent'
  build := h.build
  acquired_eq := h.acquired_eq
  free_matches := h.free_matches
  contents_eq := by
    intro other other' hother hmem
    dsimp only
    by_cases heq : other = item
    · subst heq
      rw [hmatch.eq hspread hother, Function.update_self, Function.update_self]
    · rw [Function.update_of_ne heq, Function.update_of_ne (hmatch.ne hspread' hother heq)]
      exact h.contents_eq other other' hother hmem

/-- An item in use stays at its place when slabs are added. -/
theorem contents_eq_of_longer (h : account.Twins account' memory memory' free free')
    {pool pool' : Pool T α} (hspread : pool.index.Spread)
    (hgrow : account.pool.index.slabs <+: pool.index.slabs)
    (hgrow' : account'.pool.index.slabs <+: pool'.index.slabs) (item item' : Nat)
    (hmatch : pool.index.Matches pool'.index item item') (hitem : item ∈ account.held) :
    account'.contents item' = account.contents item := by
  apply h.contents_eq item item' _ hitem
  exact hmatch.of_longer hspread hgrow hgrow' h.build.capacities_eq
    (h.left.mem_slots_of_held hitem)

/-- Both grow, or both fail to. -/
theorem grow {world : World (Recorded α σ)} {world' : World (Recorded α τ)}
    (h : account.Twins account' world.memory world'.memory free free') {capacity : Capacity}
    {turn : Turn T α (Recorded α σ) Unit} {turn' : Turn T α (Recorded α τ) Unit}
    (hgrowth : account.pool.Growth capacity world turn)
    (hgrowth' : account'.pool.Growth capacity world' turn')
    (hresult : turn'.result = turn.result) (hbuild : turn.pool.SameBuild turn'.pool)
    (hspread : turn.pool.index.Spread) (hspread' : turn'.pool.index.Spread) :
    ∃ added added', Twins { account with pool := turn.pool } { account' with pool := turn'.pool }
        turn.world.memory turn'.world.memory (added ++ free) (added' ++ free') ∧
      (turn.result = .ok () → added ≠ []) := by
  have hacquired := h.acquired_eq
  rw [← hgrowth.acquired_eq, ← hgrowth'.acquired_eq] at hacquired
  cases h.left.grown hgrowth hspread with
  | failed stop hfailed hslabs hmemory hsound =>
      cases h.right.grown hgrowth' hspread' with
      | failed stop' _ hslabs' hmemory' hsound' =>
          have hgrow : account.pool.index.slabs <+: turn.pool.index.slabs :=
            hslabs ▸ List.prefix_rfl
          have hgrow' : account'.pool.index.slabs <+: turn'.pool.index.slabs :=
            hslabs' ▸ List.prefix_rfl
          refine ⟨[], [], ⟨hmemory ▸ hsound, hmemory' ▸ hsound', hbuild, hacquired, ?_,
            h.contents_eq_of_longer hspread hgrow hgrow'⟩, ?_⟩
          · exact h.free_matches.imp fun _ _ hmatch => hmatch.mono hgrow hgrow'
          · intro hok
            rw [hfailed] at hok
            cases hok
      | added _ hadded' _ _ _ _ _ _ =>
          rw [hfailed, hadded'] at hresult
          cases hresult
  | added slab hadded hcapacity hslabs _ _ _ hsound =>
      cases h.right.grown hgrowth' hspread' with
      | failed stop' hfailed' _ _ _ =>
          rw [hadded, hfailed'] at hresult
          cases hresult
      | added slab' _ hcapacity' hslabs' _ _ _ hsound' =>
          have hgrow : account.pool.index.slabs <+: turn.pool.index.slabs :=
            hslabs ▸ List.prefix_append _ _
          have hgrow' : account'.pool.index.slabs <+: turn'.pool.index.slabs :=
            hslabs' ▸ List.prefix_append _ _
          refine ⟨slab.slots, slab'.slots, ⟨hsound, hsound', hbuild, hacquired, ?_,
            h.contents_eq_of_longer hspread hgrow hgrow'⟩, ?_⟩
          · refine List.rel_append ?_
              (h.free_matches.imp fun _ _ hmatch => hmatch.mono hgrow hgrow')
            exact SlabIndex.matches_slots hslabs hslabs' h.build.numSlabs_eq
              (hcapacity'.trans hcapacity.symm)
          · rw [slab.slots_eq_cons]
            exact fun _ => List.cons_ne_nil _ _

end Twins

end Account

end SlabPool
