import SlabPool.Proofs.Account.Sound

/-!
What clients can rely on while a request is carried out.

A client that holds an item has three things to lose by the requests of others: the bytes of the
item, its place among the held items, and the value it put there. `Account.Untouched` says that a
request took none of them, unless it was one on that very item or the end of all slabs, and
`Account.Kept` that it left the account sound besides. `Account.Sound.serve` says that this is so
for every request that clients may make.

The bytes that a request writes lie in slots of the pool. That is all that other pools need to know
about it.
-/

namespace SlabPool

variable {T : ItemType} {α σ : Type}

namespace Account

/-- A request left alone whatever it was not about. -/
structure Untouched (account : Account T α) (request : Request T Nat) (before : Memory)
    (after : Account T α) (memory : Memory) : Prop where
  writes : ∃ written ⊆ after.pool.index.slots, T.WritesOnly written before memory ∧
    ∀ item ∈ account.held, ¬ request.Ends item → ¬ request.Overwrites item → item ∉ written
  held : ∀ item ∈ account.held, ¬ request.Ends item → item ∈ after.held
  contents : ∀ item ∈ account.held, ¬ request.Ends item → ¬ request.Overwrites item →
    after.contents item = account.contents item

structure Kept (account : Account T α) (request : Request T Nat) (before : Memory)
    (after : Account T α) (memory : Memory) : Prop
    extends Untouched account request before after memory where
  sound : ∃ free, after.Sound memory free

namespace Untouched

variable {account after : Account T α} {request : Request T Nat} {before memory : Memory}

theorem writesOnly (h : account.Untouched request before after memory) :
    T.WritesOnly after.pool.index.slots before memory := by
  obtain ⟨written, hsubset, hwrites, -⟩ := h.writes
  exact hwrites.mono hsubset

/-- An item that the request is not about keeps its bytes. -/
theorem keeps (h : account.Untouched request before after memory)
    (hspread : after.pool.index.Spread) {item : Nat} (hitem : item ∈ account.held)
    (hslot : item ∈ after.pool.index.slots) (hends : ¬ request.Ends item)
    (hoverwrites : ¬ request.Overwrites item) : T.Keeps item before memory := by
  obtain ⟨written, hsubset, hwrites, hspared⟩ := h.writes
  apply hwrites.keeps
  intro other hother
  have hne : item ≠ other := by
    rintro rfl
    exact hspared item hitem hends hoverwrites hother
  exact hspread.apart_of_ne hslot (hsubset hother) hne

theorem of_still (account : Account T α) (pool : Pool T α) (request : Request T Nat)
    (memory : Memory) : account.Untouched request memory { account with pool } memory where
  writes := ⟨[], List.nil_subset _, .refl _ _, fun _ _ _ _ => List.not_mem_nil⟩
  held _ hitem _ := hitem
  contents _ _ _ _ := rfl

end Untouched

/-- No request but one on the item itself, or the end of all slabs, ends the hold on an item. -/
theorem held_serve (S : Supply α σ) {account : Account T α} (world : World σ)
    {request : Request T Nat} {item : Nat} (hitem : item ∈ account.held)
    (hends : ¬ request.Ends item) : item ∈ (account.serve S world request).account.held := by
  have hgiven : ∀ (value : Option T.Value) (turn : Turn T α σ Nat),
      item ∈ (account.handOut value turn).account.held := by
    intro value turn
    simp only [handOut]
    split
    · exact List.mem_cons_of_mem _ hitem
    · exact hitem
  have htaken : ∀ (other : Nat) (turn : Turn T α σ Unit), ¬ other = item →
      item ∈ (account.takeBack other turn).account.held := by
    intro other turn hne
    simp only [takeBack]
    split
    · exact (List.mem_erase_of_ne (Ne.symm hne)).mpr hitem
    · exact hitem
  cases request with
  | acquire => exact hgiven _ _
  | insert value => exact hgiven _ _
  | release other => exact htaken _ _ hends
  | remove other => exact htaken _ _ hends
  | check =>
      simp only [serve]
      split
      · exact hitem
      · exact hitem
  | destroy => exact absurd trivial hends
  | grow | read | write | scribble => exact hitem

namespace Sound

variable {account : Account T α} {memory : Memory} {free : List Nat}

theorem kept_of_still {pool : Pool T α} (h : Account.Sound { account with pool } memory free)
    (request : Request T Nat) :
    account.Kept request memory { account with pool } memory where
  toUntouched := .of_still account pool request memory
  sound := ⟨free, h⟩

theorem kept_of_growth {world : World (Recorded α σ)} (h : account.Sound world.memory free)
    {capacity : Capacity} {turn : Turn T α (Recorded α σ) Unit}
    (hgrowth : account.pool.Growth capacity world turn) (hspread : turn.pool.index.Spread) :
    account.Kept (.grow capacity) world.memory { account with pool := turn.pool }
      turn.world.memory := by
  cases h.grown hgrowth hspread with
  | failed stop _ _ hmemory hsound =>
      rw [hmemory]
      exact kept_of_still hsound _
  | added slab _ _ hslabs _ hwrites hunheld hsound =>
      refine ⟨⟨⟨slab.slots, ?_, hwrites, ?_⟩, fun _ hitem _ => hitem, fun _ _ _ _ => rfl⟩,
        _, hsound⟩
      · intro item hitem
        rw [SlabIndex.mem_slots, hslabs]
        exact ⟨slab, by simp, hitem⟩
      · intro item hitem _ _ hnew
        exact hunheld item hnew hitem

theorem kept_of_release (h : account.Sound memory free) (hspread : account.pool.index.Spread)
    {item : Nat} (hitem : item ∈ account.held) {request : Request T Nat}
    (hends : request.Ends item) :
    account.Kept request memory
      { account with
        pool := { account.pool with free := ⟨some item⟩ }
        held := account.held.erase item }
      (memory.setLink item account.pool.free.head) where
  sound := ⟨item :: free, h.release hspread hitem⟩
  writes := by
    refine ⟨[item], ?_, .setLink (h.eight_dvd_held hspread hitem) memory _, ?_⟩
    · exact List.cons_subset.mpr ⟨h.mem_slots_of_held hitem, List.nil_subset _⟩
    · intro other _ hends' _ hwritten
      rw [List.mem_singleton.mp hwritten] at hends'
      exact hends' hends
  held := by
    intro other hother hends'
    refine (List.mem_erase_of_ne ?_).mpr hother
    rintro rfl
    exact hends' hends
  contents _ _ _ _ := rfl

theorem kept_of_write (h : account.Sound memory free) (hspread : account.pool.index.Spread)
    {item : Nat} (hitem : item ∈ account.held) {after : Memory} {content : Option T.Value}
    (hwrites : T.WritesOnly [item] memory after)
    (hcontent : ∀ value, content = some value → T.load after item = value)
    {request : Request T Nat} (hoverwrites : request.Overwrites item) :
    account.Kept request memory
      { account with contents := Function.update account.contents item content } after where
  sound := ⟨free, h.write hspread hitem hwrites hcontent⟩
  writes := by
    refine ⟨[item], ?_, hwrites, ?_⟩
    · exact List.cons_subset.mpr ⟨h.mem_slots_of_held hitem, List.nil_subset _⟩
    · intro other _ _ hoverwrites' hwritten
      rw [List.mem_singleton.mp hwritten] at hoverwrites'
      exact hoverwrites' hoverwrites
  held _ hother _ := hother
  contents := by
    intro other _ _ hoverwrites'
    refine Function.update_of_ne ?_ _ _
    rintro rfl
    exact hoverwrites' hoverwrites

/-- An item that was not held is handed out, and may be written into at once. -/
theorem kept_of_handOut {pool : Pool T α} {item : Nat} {before middle after : Memory}
    {written : List Nat} {content : Option T.Value}
    (h : Account.Sound
      { pool
        held := item :: account.held
        contents := Function.update account.contents item none } middle free)
    (hspread : pool.index.Spread) (hfresh : item ∉ account.held)
    (hwrites : T.WritesOnly written before middle) (hsubset : written ⊆ pool.index.slots)
    (hunheld : ∀ other ∈ written, other ∉ account.held)
    (hwrites' : T.WritesOnly [item] middle after)
    (hcontent : ∀ value, content = some value → T.load after item = value)
    (request : Request T Nat) :
    account.Kept request before
      { pool
        held := item :: account.held
        contents := Function.update account.contents item content } after where
  sound := by
    have hsound := h.write hspread List.mem_cons_self hwrites' hcontent
    rw [Function.update_idem] at hsound
    exact ⟨free, hsound⟩
  writes := by
    refine ⟨item :: written, ?_, ?_, ?_⟩
    · exact List.cons_subset.mpr ⟨h.mem_slots_of_held List.mem_cons_self, hsubset⟩
    · exact (hwrites.mono (by simp)).trans (hwrites'.mono (by simp))
    · intro other hother _ _ hwritten
      rcases List.mem_cons.mp hwritten with rfl | hwritten
      · exact hfresh hother
      · exact hunheld other hwritten hother
  held _ hother _ := List.mem_cons_of_mem item hother
  contents := by
    intro other hother _ _
    refine Function.update_of_ne ?_ _ _
    rintro rfl
    exact hfresh hother

theorem serve (S : Supply α σ) {world : World (Recorded α σ)} (request : Request T Nat)
    (h : account.Sound world.memory free) (hcounted : account.PermitsCounted request)
    (hspread : account.pool.index.Spread)
    (hspread' : (account.serve S.recorded world request).account.pool.index.Spread) :
    let served := account.serve S.recorded world request
    account.Kept request world.memory served.account served.world.memory := by
  obtain ⟨hpermits, hcount⟩ := hcounted
  cases request with
  | acquire =>
      have hpool := account.handOut_pool none (account.pool.acquire S.recorded world)
      cases h.acquire S (hcount rfl) (congrArg (·.index) hpool ▸ hspread') with
      | failed stop free hresult hmemory hsound =>
          simp only [Account.serve, handOut, hresult, hmemory]
          exact kept_of_still hsound _
      | handed item free written hresult hfresh hsound hwrites hsubset hunheld =>
          have hspread : (account.pool.acquire S.recorded world).pool.index.Spread :=
            congrArg (·.index) hpool ▸ hspread'
          simp only [Account.serve, handOut, hresult]
          exact kept_of_handOut hsound hspread hfresh hwrites hsubset hunheld (.refl _ _)
            (by simp) _
  | insert value =>
      -- the item is handed out first, and then written into
      have hpool := (account.handOut_pool (some value) _).trans
        (account.pool.insert_backing S.recorded value world).1
      have hspread : (account.pool.acquire S.recorded world).pool.index.Spread :=
        congrArg (·.index) hpool ▸ hspread'
      cases h.acquire S (hcount rfl) hspread with
      | failed stop free hresult hmemory hsound =>
          simp only [Account.serve, handOut, Pool.insert, hresult, hmemory]
          exact kept_of_still hsound _
      | handed item free written hresult hfresh hsound hwrites hsubset hunheld =>
          have haligned := hsound.eight_dvd_held hspread List.mem_cons_self
          simp only [Account.serve, handOut, Pool.insert, hresult]
          exact kept_of_handOut hsound hspread hfresh hwrites hsubset hunheld
            (.store haligned _ value) (fun _ h => ItemType.load_of_stored h _ _) _
  | release item => exact h.kept_of_release hspread hpermits rfl
  | remove item =>
      simp only [Account.serve, Pool.remove]
      split
      · -- the value raised a fault, so the item was not taken back
        refine ⟨⟨⟨[], by simp, .refl _ _, by simp⟩, fun _ hother _ => hother, ?_⟩, free, ?_⟩
        · intro other _ hends _
          exact Function.update_of_ne (fun heq => hends heq.symm) _ _
        · exact h.write hspread hpermits (.refl _ _) (by simp)
      · exact h.kept_of_release hspread hpermits rfl
  | grow capacity =>
      exact h.kept_of_growth (account.pool.grow_growth S capacity world) hspread'
  | check =>
      simp only [Account.serve]
      split
      · exact kept_of_still h _
      · exact kept_of_still h _
  | destroy =>
      -- every hold ends here, so nothing was promised to anybody
      have hgone : ∀ item, (Request.destroy : Request T Nat).Ends item := fun _ => trivial
      simp only [Account.serve, Pool.destroy]
      split
      · exact ⟨⟨⟨[], by simp, .refl _ _, by simp⟩, fun item _ h => absurd (hgone item) h,
          fun item _ h => absurd (hgone item) h⟩, [], rfl, .nil, by simp⟩
      · exact ⟨⟨⟨[], by simp, .refl _ _, by simp⟩, fun item _ h => absurd (hgone item) h,
          fun item _ h => absurd (hgone item) h⟩, [], rfl, .nil, by simp⟩
  | read item => exact kept_of_still h _
  | write item value =>
      have haligned := h.eight_dvd_held hspread hpermits
      exact h.kept_of_write hspread hpermits (.store haligned _ value)
        (fun _ h => ItemType.load_of_stored h _ _) rfl
  | scribble item offset words =>
      obtain ⟨hitem, hoffset, hfits⟩ := hpermits
      have haligned := h.eight_dvd_held hspread hitem
      refine h.kept_of_write hspread hitem (.writeRow haligned hoffset hfits _) ?_ rfl
      intro value hvalue
      exact ItemType.load_of_overwritten haligned hoffset (h.values item hitem) hvalue

end Sound

theorem sound_new (allocator : α) (memory : Memory) :
    Account.Sound ({ pool := { allocator } } : Account T α) memory [] where
  holds := rfl
  perm := .nil
  values := by simp

end Account

/-- A new pool is sound, and only its own slots were written into. -/
theorem Blueprint.Built.sound {plan : Blueprint α} {world : World (Recorded α σ)}
    {reply : Reply (Recorded α σ) (Pool T α)} (h : plan.Built world reply) {pool : Pool T α}
    (hresult : reply.result = .ok pool) (hspread : pool.index.Spread) :
    (∃ free, Account.Sound { pool } reply.world.memory free) ∧
      T.WritesOnly pool.index.slots world.memory reply.world.memory := by
  obtain ⟨rfl, hworld⟩ | ⟨capacity, turn, hgrowth, rfl, hworld⟩ := h.of_ok hresult
  · rw [hworld]
    exact ⟨⟨[], Account.sound_new _ _⟩, .refl _ _⟩
  · rw [hworld]
    have hkept := (Account.sound_new (T := T) plan.allocator world.memory).kept_of_growth
      hgrowth hspread
    obtain ⟨written, hsubset, hwrites, -⟩ := hkept.writes
    exact ⟨hkept.sound, hwrites.mono hsubset⟩

end SlabPool
