import SlabPool.Proofs.Account.Turnover
import SlabPool.Proofs.Frame

/-!
Accounts that are in order.

The slots of a pool are of two kinds: those on the free list, which the links in memory lead
through, and those that clients hold. `Account.Sound memory free` says that `free` and the held
items are together exactly the slots, that the links from the head lead through `free` and end, and
that the held items have the values in them that were put there.

An item is handed out, taken back, written into, or a run of new slots is added: each of the four
has one lemma, which says what becomes of `free`. All of them rest on slots not sharing bytes, so
each asks that the blocks of the pool are spread out.
-/

namespace SlabPool

variable {T : ItemType} {α σ : Type}

/-! ### Slots that are handed out -/

theorem Pool.take_of_head {pool : Pool T α} {item : Nat} (h : pool.free.head = some item)
    (hcount : pool.acquired < Word.max) (memory : Memory) :
    pool.take memory =
      (.ok item, { pool with free := ⟨memory.link item⟩, acquired := pool.acquired + 1 }) := by
  have hadd : Word.checkedAdd pool.acquired 1 = some (pool.acquired + 1) := by
    refine Word.checkedAdd_eq_some_iff.mpr ⟨rfl, ?_⟩
    unfold Word.max at hcount
    unfold Word.modulus
    omega
  simp only [Pool.take, FreeList.pop?, h, Option.map_some, hadd]

theorem Pool.take_of_holds {pool : Pool T α} {memory : Memory} {item : Nat} {free : List Nat}
    (h : pool.free.Holds memory (item :: free)) (hcount : pool.acquired < Word.max) :
    pool.take memory =
      (.ok item, { pool with free := ⟨memory.link item⟩, acquired := pool.acquired + 1 }) :=
  Pool.take_of_head h.1 hcount memory

theorem Pool.acquire_of_head (S : Supply α σ) {pool : Pool T α} {world : World σ} {item : Nat}
    (h : pool.free.head = some item) (hcount : pool.acquired < Word.max) :
    pool.acquire S world =
      { result := .ok item
        world
        pool := { pool with
          free := ⟨world.memory.link item⟩
          acquired := pool.acquired + 1 } } := by
  have hempty : pool.free.isEmpty = false := by
    rw [FreeList.isEmpty, h]
    rfl
  rw [Pool.acquire, hempty, Pool.take_of_head h hcount]
  rfl

theorem Pool.acquire_of_holds (S : Supply α σ) {pool : Pool T α} {world : World σ} {item : Nat}
    {free : List Nat} (h : pool.free.Holds world.memory (item :: free))
    (hcount : pool.acquired < Word.max) :
    pool.acquire S world =
      { result := .ok item
        world
        pool := { pool with
          free := ⟨world.memory.link item⟩
          acquired := pool.acquired + 1 } } :=
  Pool.acquire_of_head S h.1 hcount

theorem Pool.acquire_of_failed (S : Supply α σ) {pool : Pool T α} {world : World σ} {stop : Stop}
    (h : pool.free.head = none)
    (hstop : (pool.grow S pool.nextGrowth world).result = .error stop) :
    pool.acquire S world =
      { pool.grow S pool.nextGrowth world with result := .error stop } := by
  rw [Pool.acquire, if_pos (FreeList.isEmpty_iff.mpr h)]
  simp only [hstop]

theorem Pool.acquire_of_added (S : Supply α σ) {pool : Pool T α} {world : World σ}
    (h : pool.free.head = none)
    (hdone : (pool.grow S pool.nextGrowth world).result = .ok ()) :
    let growth := pool.grow S pool.nextGrowth world
    let taken := growth.pool.take growth.world.memory
    pool.acquire S world = { growth with result := taken.1, pool := taken.2 } := by
  intro growth taken
  rw [Pool.acquire, if_pos (FreeList.isEmpty_iff.mpr h)]
  simp only [hdone]
  rfl

/-- Where growth is needed, it is all that an acquisition reports and calls. -/
theorem Pool.acquire_of_none (S : Supply α σ) {pool : Pool T α} (h : pool.free.head = none)
    (world : World σ) :
    let turn := pool.acquire S world
    let growth := pool.grow S pool.nextGrowth world
    turn.events = growth.events ∧ turn.destroyed = growth.destroyed ∧
      turn.world = growth.world := by
  intro turn growth
  cases hresult : (pool.grow S pool.nextGrowth world).result with
  | error stop =>
      simp only [turn, Pool.acquire_of_failed S h hresult]
      exact ⟨rfl, rfl, rfl⟩
  | ok done =>
      simp only [turn, Pool.acquire_of_added S h hresult]
      exact ⟨rfl, rfl, rfl⟩

theorem Pool.index_acquire_of_none (S : Supply α σ) {pool : Pool T α} (h : pool.free.head = none)
    (world : World σ) :
    (pool.acquire S world).pool.index = (pool.grow S pool.nextGrowth world).pool.index := by
  cases hresult : (pool.grow S pool.nextGrowth world).result with
  | error stop => rw [Pool.acquire_of_failed S h hresult]
  | ok done =>
      rw [Pool.acquire_of_added S h hresult]
      exact (Pool.take_index _ _).1

/-- Where growth was needed, the blocks after it are those after the acquisition. -/
theorem Pool.spread_of_acquire (S : Supply α σ) {pool : Pool T α} {world : World σ}
    (h : pool.free.Holds world.memory [])
    (hspread : (pool.acquire S world).pool.index.Spread) :
    (pool.grow S pool.nextGrowth world).pool.index.Spread := by
  have hhead : pool.free.head = none := h
  rwa [Pool.index_acquire_of_none S hhead] at hspread

/-! ### Walks that meet no obstacle -/

theorem Memory.Chain.traverseFrom_eq_ok {memory : Memory} {entry : Option Nat} {items : List Nat}
    (h : memory.Chain entry items) {ε : Type} (visit : Unit → Nat → Except ε Unit)
    (hvisit : ∀ item ∈ items, visit () item = .ok ()) {limit : Nat}
    (hlimit : items.length ≤ limit) :
    FreeList.traverseFrom memory visit limit entry () = .ok ((), true) := by
  induction items generalizing entry limit with
  | nil =>
      obtain rfl : entry = none := h
      rw [FreeList.traverseFrom]
  | cons item items ih =>
      obtain ⟨rfl, hrest⟩ := h
      cases limit with
      | zero => exact absurd hlimit (Nat.not_succ_le_zero _)
      | succ limit =>
          simp only [FreeList.traverseFrom, hvisit item List.mem_cons_self]
          exact ih hrest (fun other hother => hvisit other (List.mem_cons_of_mem item hother))
            (Nat.le_of_succ_le_succ hlimit)

/-! ### Sound accounts -/

namespace Account

/-- A content that was entered is that of the item in question, or that of another as before. -/
theorem eq_some_of_update {contents : Nat → Option T.Value} {item other : Nat}
    {content : Option T.Value} {value : T.Value}
    (h : Function.update contents item content other = some value) :
    (other = item ∧ content = some value) ∨ (other ≠ item ∧ contents other = some value) := by
  by_cases heq : other = item
  · subst heq
    rw [Function.update_self] at h
    exact .inl ⟨rfl, h⟩
  · rw [Function.update_of_ne heq] at h
    exact .inr ⟨heq, h⟩

structure Sound (account : Account T α) (memory : Memory) (free : List Nat) : Prop where
  holds : account.pool.free.Holds memory free
  perm : (free ++ account.held).Perm account.pool.index.slots
  values : ∀ item ∈ account.held, ∀ value, account.contents item = some value →
    T.load memory item = value

namespace Sound

variable {account : Account T α} {memory after : Memory} {free : List Nat} {item : Nat}

theorem mem_slots (h : account.Sound memory free) (hitem : item ∈ free ++ account.held) :
    item ∈ account.pool.index.slots :=
  h.perm.mem_iff.mp hitem

theorem mem_slots_of_held (h : account.Sound memory free) (hitem : item ∈ account.held) :
    item ∈ account.pool.index.slots :=
  h.mem_slots (List.mem_append_right free hitem)

theorem mem_slots_of_free (h : account.Sound memory free) (hitem : item ∈ free) :
    item ∈ account.pool.index.slots :=
  h.mem_slots (List.mem_append_left account.held hitem)

/-- No two slots, free or held, share a byte. -/
theorem apart (h : account.Sound memory free) (hspread : account.pool.index.Spread) :
    (free ++ account.held).Pairwise T.Apart :=
  (h.perm.pairwise_iff (fun h => Or.symm h)).mpr hspread.slots_apart

theorem free_apart_held (h : account.Sound memory free) (hspread : account.pool.index.Spread)
    {other : Nat} (hother : other ∈ free) (hitem : item ∈ account.held) : T.Apart other item :=
  (List.pairwise_append.mp (h.apart hspread)).2.2 other hother item hitem

theorem held_apart (h : account.Sound memory free) (hspread : account.pool.index.Spread)
    {other : Nat} (hother : other ∈ account.held) (hitem : item ∈ account.held)
    (hne : other ≠ item) : T.Apart other item :=
  hspread.apart_of_ne (h.mem_slots_of_held hother) (h.mem_slots_of_held hitem) hne

theorem eight_dvd_held (h : account.Sound memory free) (hspread : account.pool.index.Spread)
    (hitem : item ∈ account.held) : 8 ∣ item :=
  hspread.eight_dvd_slot (h.mem_slots_of_held hitem)

theorem held_nodup (h : account.Sound memory free) (hspread : account.pool.index.Spread) :
    account.held.Nodup :=
  ((List.pairwise_append.mp (h.apart hspread)).2.1).imp ItemType.Apart.ne

theorem free_ne_zero (h : account.Sound memory free) (hspread : account.pool.index.Spread) :
    ∀ item ∈ free, item ≠ 0 := by
  intro item hitem
  have hpos := hspread.slot_pos (h.mem_slots_of_free hitem)
  omega

/-- An account stays sound while the bytes of its slots stay. -/
theorem congr (h : account.Sound memory free)
    (hkeeps : ∀ item ∈ account.pool.index.slots, T.Keeps item memory after) :
    account.Sound after free where
  holds := ItemType.Keeps.holds (fun item hitem => hkeeps item (h.mem_slots_of_free hitem)) h.holds
  perm := h.perm
  values := by
    intro item hitem value hvalue
    rw [(hkeeps item (h.mem_slots_of_held hitem)).load_eq]
    exact h.values item hitem value hvalue

/-- The first free slot is handed out. -/
theorem take (h : account.Sound memory (item :: free)) (pool : Pool T α)
    (hindex : pool.index = account.pool.index) (hfree : pool.free = ⟨memory.link item⟩) :
    Account.Sound
      { pool
        held := item :: account.held
        contents := Function.update account.contents item none } memory free where
  holds := hfree ▸ h.holds.2
  perm := by
    rw [hindex]
    exact List.perm_middle.trans h.perm
  values := by
    intro other hother value hvalue
    obtain ⟨-, hnone⟩ | ⟨hne, hvalue⟩ := eq_some_of_update hvalue
    · cases hnone
    · exact h.values other ((List.mem_cons.mp hother).resolve_left hne) value hvalue

theorem write (h : account.Sound memory free) (hspread : account.pool.index.Spread)
    (hitem : item ∈ account.held) (hwrites : T.WritesOnly [item] memory after)
    {content : Option T.Value}
    (hcontent : ∀ value, content = some value → T.load after item = value) :
    Account.Sound { account with contents := Function.update account.contents item content }
      after free where
  holds := by
    refine ItemType.Keeps.holds (T := T) ?_ h.holds
    intro other hother
    exact hwrites.keeps_of_apart (h.free_apart_held hspread hother hitem)
  perm := h.perm
  values := by
    intro other hother value hvalue
    obtain ⟨rfl, hentered⟩ | ⟨hne, hvalue⟩ := eq_some_of_update hvalue
    · exact hcontent value hentered
    · have hkeeps : T.Keeps other memory after :=
        hwrites.keeps_of_apart (h.held_apart hspread hother hitem hne)
      rw [hkeeps.load_eq]
      exact h.values other hother value hvalue

theorem release (h : account.Sound memory free) (hspread : account.pool.index.Spread)
    (hitem : item ∈ account.held) :
    Account.Sound
      { account with
        pool := { account.pool with free := ⟨some item⟩ }
        held := account.held.erase item }
      (memory.setLink item account.pool.free.head) (item :: free) where
  holds := by
    apply h.holds.push (h.free_ne_zero hspread)
    intro other hother
    exact (h.free_apart_held hspread hother hitem).cell_ne.symm
  perm := by
    have hback : (item :: account.held.erase item).Perm account.held :=
      (List.perm_cons_erase hitem).symm
    exact (List.perm_middle.symm.trans (hback.append_left free)).trans h.perm
  values := by
    intro other hother value hvalue
    have hne : other ≠ item := by
      intro heq
      rw [heq] at hother
      exact (h.held_nodup hspread).not_mem_erase hother
    have hmem : other ∈ account.held := List.mem_of_mem_erase hother
    have hwrites := ItemType.WritesOnly.setLink (T := T) (h.eight_dvd_held hspread hitem) memory
      account.pool.free.head
    have hkeeps := hwrites.keeps_of_apart (h.held_apart hspread hmem hitem hne)
    rw [hkeeps.load_eq]
    exact h.values other hmem value hvalue

/-- A slab is added, with all of its slots in front of the free ones. -/
theorem grow (h : account.Sound memory free) {pool : Pool T α} {slab : Slab T}
    (hslots : pool.index.slots = account.pool.index.slots ++ slab.slots)
    (hspread : pool.index.Spread)
    (hlinked : account.pool.free.pushRow slab.first T.size slab.capacity.val memory =
      .ok (pool.free, after)) :
    Account.Sound { account with pool } after (slab.slots ++ free) ∧
      T.WritesOnly slab.slots memory after := by
  have hapart : (account.pool.index.slots ++ slab.slots).Pairwise T.Apart :=
    hslots ▸ hspread.slots_apart
  have hnew : ∀ item ∈ account.pool.index.slots, ∀ other ∈ slab.slots, T.Apart item other :=
    (List.pairwise_append.mp hapart).2.2
  -- the free slots are slots of the longer list too, and those are not at zero
  have hpos : ∀ item ∈ free, item ≠ 0 := by
    intro item hitem
    have hmem := List.mem_append_left slab.slots (h.mem_slots_of_free hitem)
    rw [← hslots] at hmem
    exact (hspread.slot_pos hmem).ne'
  have haligned : 8 ∣ slab.first := by
    have hfirst : slab.first ∈ slab.slots := by
      rw [slab.slots_eq_cons]
      exact List.mem_cons_self
    have hmem := List.mem_append_right account.pool.index.slots hfirst
    rw [← hslots] at hmem
    exact hspread.eight_dvd_slot hmem
  have hwrites : T.WritesOnly slab.slots memory after :=
    ItemType.WritesOnly.pushRow haligned slab.capacity.property hlinked
  refine ⟨⟨?_, ?_, ?_⟩, hwrites⟩
  · obtain ⟨longer, memory', hpush, hholds⟩ :=
      h.holds.pushRow T.eight_le_size slab.capacity.property hpos (by
        intro k hk item hitem
        have hslot := Slab.mem_slots.mpr ⟨k, hk, rfl⟩
        exact (hnew item (h.mem_slots_of_free hitem) _ hslot).cell_ne.symm)
    rw [hlinked] at hpush
    cases hpush
    exact hholds
  · rw [hslots, List.append_assoc]
    exact List.perm_append_comm.trans (h.perm.append_right slab.slots)
  · intro item hitem value hvalue
    have hkeeps : T.Keeps item memory after :=
      hwrites.keeps (hnew item (h.mem_slots_of_held hitem))
    rw [hkeeps.load_eq]
    exact h.values item hitem value hvalue

/-- The capacity of a pool is the number of its free slots and of its items in use. -/
theorem capacity_eq (h : account.Sound memory free) :
    account.pool.capacity = free.length + account.held.length := by
  rw [← account.pool.length_slots, ← h.perm.length_eq, List.length_append]

theorem checkedCapacity_eq (h : account.Sound memory free) (hspread : account.pool.index.Spread) :
    account.pool.checkedCapacity = .ok (free.length + account.held.length) := by
  rw [← h.capacity_eq]
  exact Pool.checkedCapacity_of_spread hspread

/-- A walk along the links of a sound account finds nothing wrong. -/
theorem check_eq_ok (h : account.Sound memory free) (hspread : account.pool.index.Spread) :
    account.pool.check memory = .ok () := by
  have hentry : ∀ item ∈ free, account.pool.checkEntry item = .ok () := by
    intro item hitem
    rw [Pool.checkEntry, if_pos (hspread.contains_iff.mpr (h.mem_slots_of_free hitem))]
  have hwalk := h.holds.traverseFrom_eq_ok (fun () item => account.pool.checkEntry item) hentry
    (Nat.le_add_right free.length account.held.length)
  simp only [Pool.check, h.checkedCapacity_eq hspread, FreeList.traverse, hwalk]

end Sound

/-! ### Growth -/

/-- What growth can come to for a sound account with the given free slots. -/
inductive Grown (account : Account T α) (free : List Nat) (capacity : Capacity) (before : Memory)
    (turn : Turn T α (Recorded α σ) Unit) : Prop
  | failed (stop : Stop)
      (result_eq : turn.result = .error stop)
      (slabs_eq : turn.pool.index.slabs = account.pool.index.slabs)
      (memory_eq : turn.world.memory = before)
      (sound : Account.Sound { account with pool := turn.pool } before free)
  | added (slab : Slab T)
      (result_eq : turn.result = .ok ())
      (capacity_eq : slab.capacity = capacity)
      (slabs_eq : turn.pool.index.slabs = account.pool.index.slabs ++ [slab])
      (acquired_eq : turn.pool.acquired = account.pool.acquired)
      (writes : T.WritesOnly slab.slots before turn.world.memory)
      (unheld : ∀ item ∈ slab.slots, item ∉ account.held)
      (sound : Account.Sound { account with pool := turn.pool } turn.world.memory
        (slab.slots ++ free))

theorem Sound.grown {account : Account T α} {world : World (Recorded α σ)} {free : List Nat}
    (h : account.Sound world.memory free) {capacity : Capacity}
    {turn : Turn T α (Recorded α σ) Unit} (hgrowth : account.pool.Growth capacity world turn)
    (hspread : turn.pool.index.Spread) : account.Grown free capacity world.memory turn := by
  cases hgrowth with
  | failed stop reserved hresult hpool hmemory _ =>
      refine .failed stop hresult (by rw [hpool]) hmemory ?_
      rw [hpool]
      exact ⟨h.holds, h.perm, h.values⟩
  | added slab reserved longer calls hresult hcapacity _ hlinked hpool _ _ =>
      have hslots : turn.pool.index.slots = account.pool.index.slots ++ slab.slots := by
        rw [hpool]
        exact account.pool.index.slots_append slab
      have hlinked : account.pool.free.pushRow slab.first T.size slab.capacity.val
          world.memory = .ok (turn.pool.free, turn.world.memory) := by
        rw [hlinked, hpool]
      obtain ⟨hsound, hwrites⟩ := h.grow hslots hspread hlinked
      refine .added slab hresult hcapacity (by rw [hpool]) (by rw [hpool]) hwrites ?_ hsound
      intro item hitem hheld
      have hmem : item ∈ slab.slots ++ free := List.mem_append_left free hitem
      exact (hsound.free_apart_held hspread hmem hheld).ne rfl

/-! ### Acquisitions -/

/-- What acquiring an item can come to. -/
inductive Acquired (account : Account T α) (before : Memory)
    (turn : Turn T α (Recorded α σ) Nat) : Prop
  | failed (stop : Stop) (free : List Nat)
      (result_eq : turn.result = .error stop)
      (memory_eq : turn.world.memory = before)
      (sound : Account.Sound { account with pool := turn.pool } before free)
  | handed (item : Nat) (free written : List Nat)
      (result_eq : turn.result = .ok item)
      (fresh : item ∉ account.held)
      (sound : Account.Sound
        { pool := turn.pool
          held := item :: account.held
          contents := Function.update account.contents item none } turn.world.memory free)
      (writes : T.WritesOnly written before turn.world.memory)
      (written_subset : written ⊆ turn.pool.index.slots)
      (unheld : ∀ other ∈ written, other ∉ account.held)

theorem Sound.acquire (S : Supply α σ) {account : Account T α} {world : World (Recorded α σ)}
    {free : List Nat} (h : account.Sound world.memory free)
    (hcount : account.pool.acquired < Word.max)
    (hspread : (account.pool.acquire S.recorded world).pool.index.Spread) :
    account.Acquired world.memory (account.pool.acquire S.recorded world) := by
  cases free with
  | cons item free =>
      have hturn := Pool.acquire_of_holds S.recorded h.holds hcount
      rw [hturn] at hspread ⊢
      refine .handed item free [] rfl ?_ (h.take _ rfl rfl) (.refl _ _) (by simp) (by simp)
      intro hitem
      exact (h.free_apart_held hspread List.mem_cons_self hitem).ne rfl
  | nil =>
      have hgrowth := account.pool.grow_growth S account.pool.nextGrowth world
      have hgrown := h.grown hgrowth (account.pool.spread_of_acquire S.recorded h.holds hspread)
      cases hgrown with
      | failed stop hresult _ hmemory hsound =>
          rw [Pool.acquire_of_failed S.recorded h.holds hresult]
          exact .failed stop [] rfl hmemory hsound
      | added slab hresult _ hslabs hacquired hwrites hunheld hsound =>
          have hturn := Pool.acquire_of_added S.recorded h.holds hresult
          generalize account.pool.grow S.recorded account.pool.nextGrowth world = growth
            at hturn hslabs hacquired hwrites hsound
          -- the first slot of the slab is the one that is handed out
          rw [List.append_nil, slab.slots_eq_cons] at hsound
          have htake := Pool.take_of_holds hsound.holds (hacquired ▸ hcount)
          rw [hturn]
          simp only [htake]
          refine .handed slab.first _ slab.slots rfl ?_ (hsound.take _ rfl rfl) hwrites ?_ hunheld
          · exact hunheld slab.first (by simp [slab.slots_eq_cons])
          · intro item hitem
            rw [SlabIndex.mem_slots, hslabs]
            exact ⟨slab, by simp, hitem⟩

end Account

end SlabPool
