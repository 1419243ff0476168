import SlabPool.Proofs.Twins

/-!
Twins are served alike.

The same request is made to two pools whose accounts are twins, with items named by their places.
If the surroundings of both hear the same tape, the answers are the same, and what is left behind
are twins again (`Account.Twins.serve`). There is one exception to the latter: an acquisition that
cannot be counted loses a slot, and then it is larger accounts that are twins. `Account.Paired` is
what remains for all requests: a pool that is within one of two twins, and a pool that is that of
the other. A `Notice` is all that is noticed of a request, and it is the same for both of a pair.
-/

namespace SlabPool

variable {T : ItemType} {α σ τ : Type}

/-- What is noticed of a request: what is seen of the pool afterwards, what was reported, and which
values came to their end. -/
structure Notice (T : ItemType) where
  report : Report T
  events : List Event
  destroyed : List Image

def Served.notice (served : Served T α σ) : Notice T where
  report := served.account.report served.result
  events := served.events
  destroyed := served.destroyed

namespace Account

/-! ### Acquisitions -/

/-- What acquiring a slot can come to for twins: it is handed out by both, or by neither. -/
inductive AcquiredAlike (account account' : Account T α) (turn : Turn T α (Recorded α σ) Nat)
    (turn' : Turn T α (Recorded α τ) Nat) : Prop
  | failed (stop : Stop) (larger larger' : Account T α) (free free' : List Nat)
      (result_eq : turn.result = .error stop)
      (result_eq' : turn'.result = .error stop)
      (within : Account.Within { account with pool := turn.pool } larger)
      (pool_eq : larger'.pool = turn'.pool)
      (twins : larger.Twins larger' turn.world.memory turn'.world.memory free free')
  | handed (item item' : Nat) (free free' : List Nat)
      (result_eq : turn.result = .ok item)
      (result_eq' : turn'.result = .ok item')
      (matched : turn.pool.index.Matches turn'.pool.index item item')
      (twins : Twins
        { pool := turn.pool
          held := item :: account.held
          contents := Function.update account.contents item none }
        { pool := turn'.pool
          held := item' :: account'.held
          contents := Function.update account'.contents item' none }
        turn.world.memory turn'.world.memory free free')

namespace Twins

variable {account account' : Account T α} {memory memory' : Memory} {free free' : List Nat}
  {S : Supply α σ} {S' : Supply α τ} {world : World (Recorded α σ)} {world' : World (Recorded α τ)}
  {tape rest rest' : List Verdict}

theorem nextGrowth_eq (h : account.Twins account' memory memory' free free') :
    account'.pool.nextGrowth = account.pool.nextGrowth := by
  apply Subtype.ext
  rw [Pool.nextGrowth_val, Pool.nextGrowth_val, h.acquired_eq]

/-- A slot is free, in both. -/
theorem acquire_of_cons {item item' : Nat}
    (h : account.Twins account' world.memory world'.memory (item :: free) (item' :: free'))
    (hspread : account.pool.index.Spread) (hspread' : account'.pool.index.Spread) :
    let turn := account.pool.acquire S.recorded world
    let turn' := account'.pool.acquire S'.recorded world'
    turn.InConcert turn'.toReply world.supply.calls world'.supply.calls ∧
      account.AcquiredAlike account' turn turn' := by
  intro turn turn'
  have hmatch := (List.forall₂_cons.mp h.free_matches).1
  by_cases hcount : account.pool.acquired < Word.max
  · have hturn : turn = _ := Pool.acquire_of_holds S.recorded h.left.holds hcount
    have hturn' : turn' = _ :=
      Pool.acquire_of_holds S'.recorded h.right.holds (h.acquired_eq ▸ hcount)
    rw [hturn, hturn', h.acquired_eq]
    exact ⟨⟨rfl, rfl, .refl _ _⟩,
      .handed item item' free free' rfl rfl hmatch (h.take hspread hspread' _)⟩
  · -- the slot is taken off both lists, and lost
    have hspent : Word.max ≤ account.pool.acquired := Nat.not_lt.mp hcount
    have hturn : turn = _ := Pool.acquire_of_spent S.recorded h.left.holds.1 hspent world
    have hturn' : turn' = _ :=
      Pool.acquire_of_spent S'.recorded h.right.holds.1 (h.acquired_eq ▸ hspent) world'
    have htwins := h.take hspread hspread' account.pool.acquired
    rw [hturn, hturn']
    refine ⟨⟨rfl, rfl, .refl _ _⟩, .failed (.fault .countExhausted) _ _ free free' rfl rfl
      (.lose h.left hspread _) ?_ htwins⟩
    rw [← h.acquired_eq]

/-- Both take the first slot of the slab that was added. -/
theorem acquired_of_added (h : account.Twins account' world.memory world'.memory [] [])
    (hdone : (account.pool.grow S.recorded account.pool.nextGrowth world).result = .ok ())
    (hdone' : (account'.pool.grow S'.recorded account.pool.nextGrowth world').result = .ok ())
    {added added' : List Nat}
    (htwins : Twins
      { account with pool := (account.pool.grow S.recorded account.pool.nextGrowth world).pool }
      { account' with pool := (account'.pool.grow S'.recorded account.pool.nextGrowth world').pool }
      (account.pool.grow S.recorded account.pool.nextGrowth world).world.memory
      (account'.pool.grow S'.recorded account.pool.nextGrowth world').world.memory added added')
    (hadded : added ≠ [])
    (hspread : (account.pool.grow S.recorded account.pool.nextGrowth world).pool.index.Spread)
    (hspread' : (account'.pool.grow S'.recorded account.pool.nextGrowth world').pool.index.Spread) :
    account.AcquiredAlike account' (account.pool.acquire S.recorded world)
      (account'.pool.acquire S'.recorded world') := by
  have hcount : account.pool.acquired < Word.max := by
    refine Nat.not_le.mp fun hspent => ?_
    obtain ⟨stop, hstop⟩ := Pool.error_of_spent S hspent world
    rw [hdone] at hstop
    cases hstop
  rw [← (account.pool.grow_growth S account.pool.nextGrowth world).acquired_eq] at hcount
  obtain ⟨item, more, rfl⟩ := List.exists_cons_of_ne_nil hadded
  obtain ⟨item', more', hmatch, -, rfl⟩ := List.forall₂_cons_left_iff.mp htwins.free_matches
  have htake := Pool.take_of_holds htwins.left.holds hcount
  have htake' := Pool.take_of_holds htwins.right.holds (htwins.acquired_eq ▸ hcount)
  have hsame :
      (account'.pool.grow S'.recorded account.pool.nextGrowth world').pool.acquired =
        (account.pool.grow S.recorded account.pool.nextGrowth world).pool.acquired :=
    htwins.acquired_eq
  have hturn := Pool.acquire_of_added S.recorded h.left.holds hdone
  have hturn' := Pool.acquire_of_added S'.recorded h.right.holds (h.nextGrowth_eq ▸ hdone')
  rw [h.nextGrowth_eq] at hturn'
  rw [hturn, hturn']
  simp only [htake, htake', hsame]
  exact .handed item item' more more' rfl rfl hmatch (htwins.take hspread hspread' _)

/-- No slot is free, in either. -/
theorem acquire_of_nil (h : account.Twins account' world.memory world'.memory [] [])
    (hspread : (account.pool.acquire S.recorded world).pool.index.Spread)
    (hspread' : (account'.pool.acquire S'.recorded world').pool.index.Spread)
    (hleft : Heard tape rest world.supply.calls
      (account.pool.acquire S.recorded world).world.supply.calls)
    (hright : Heard tape rest' world'.supply.calls
      (account'.pool.acquire S'.recorded world').world.supply.calls) :
    let turn := account.pool.acquire S.recorded world
    let turn' := account'.pool.acquire S'.recorded world'
    turn.InConcert turn'.toReply world.supply.calls world'.supply.calls ∧
      account.AcquiredAlike account' turn turn' := by
  intro turn turn'
  obtain ⟨hevents, hdestroyed, hworld⟩ := Pool.acquire_of_none S.recorded h.left.holds world
  obtain ⟨hevents', hdestroyed', hworld'⟩ := Pool.acquire_of_none S'.recorded h.right.holds world'
  rw [hworld] at hleft
  rw [hworld', h.nextGrowth_eq] at hright
  rw [h.nextGrowth_eq] at hevents' hdestroyed' hworld'
  have hgrown := Pool.spread_of_acquire S.recorded h.left.holds hspread
  have hgrown' := Pool.spread_of_acquire S'.recorded h.right.holds hspread'
  rw [h.nextGrowth_eq] at hgrown'
  obtain ⟨hresult, hbuild, hconcert⟩ := h.build.grow account.pool.nextGrowth hleft hright
  have hgrowth := account.pool.grow_growth S account.pool.nextGrowth world
  have hgrowth' := account'.pool.grow_growth S' account.pool.nextGrowth world'
  obtain ⟨added, added', htwins, hadded⟩ :=
    h.grow hgrowth hgrowth' hresult hbuild hgrown hgrown'
  refine ⟨⟨?_, ?_, ?_⟩, ?_⟩
  · rw [hevents', hevents, hconcert.events_eq]
  · rw [hdestroyed', hdestroyed, hconcert.destroyed_eq]
  · rw [hworld', hworld]
    exact hconcert.echo
  · cases hdone : (account.pool.grow S.recorded account.pool.nextGrowth world).result with
    | error stop =>
        have hturn : turn = _ := Pool.acquire_of_failed S.recorded h.left.holds hdone
        have hturn' : turn' = _ := Pool.acquire_of_failed S'.recorded h.right.holds
          (h.nextGrowth_eq ▸ hresult.trans hdone)
        rw [h.nextGrowth_eq] at hturn'
        rw [hturn, hturn']
        exact .failed stop _ _ _ _ rfl rfl (.refl _) rfl htwins
    | ok done =>
        rw [List.append_nil, List.append_nil] at htwins
        exact h.acquired_of_added hdone (hresult.trans hdone) htwins (hadded hdone) hgrown hgrown'

theorem acquire (h : account.Twins account' world.memory world'.memory free free')
    (hspread : (account.pool.acquire S.recorded world).pool.index.Spread)
    (hspread' : (account'.pool.acquire S'.recorded world').pool.index.Spread)
    (hbefore : account.pool.index.Spread) (hbefore' : account'.pool.index.Spread)
    (hleft : Heard tape rest world.supply.calls
      (account.pool.acquire S.recorded world).world.supply.calls)
    (hright : Heard tape rest' world'.supply.calls
      (account'.pool.acquire S'.recorded world').world.supply.calls) :
    let turn := account.pool.acquire S.recorded world
    let turn' := account'.pool.acquire S'.recorded world'
    turn.InConcert turn'.toReply world.supply.calls world'.supply.calls ∧
      account.AcquiredAlike account' turn turn' := by
  cases free with
  | nil =>
      obtain rfl : free' = [] := List.forall₂_nil_left_iff.mp h.free_matches
      exact h.acquire_of_nil hspread hspread' hleft hright
  | cons item free =>
      obtain ⟨item', free', -, -, rfl⟩ := List.forall₂_cons_left_iff.mp h.free_matches
      exact h.acquire_of_cons hbefore hbefore'

end Twins

/-! ### Requests -/

/-- Two requests were answered alike, with items named by their places, and left twins behind, or
accounts within twins. -/
structure ServedAlike (served : Served T α (Recorded α σ)) (served' : Served T α (Recorded α τ))
    (before before' : List (Call α)) : Prop where
  result_eq : served'.result.map (Outcome.map served'.account.pool.index.locate?) =
    served.result.map (Outcome.map served.account.pool.index.locate?)
  concert : served.InConcert served'.toReply before before'
  twins : ∃ larger larger' free free', served.account.Within larger ∧
    larger'.pool = served'.account.pool ∧
    larger.Twins larger' served.world.memory served'.world.memory free free'

namespace Twins

variable {account account' : Account T α} {free free' : List Nat}
  {S : Supply α σ} {S' : Supply α τ} {world : World (Recorded α σ)} {world' : World (Recorded α τ)}
  {tape rest rest' : List Verdict}

theorem serve_acquire (h : account.AcquiredAlike account' (account.pool.acquire S.recorded world)
      (account'.pool.acquire S'.recorded world'))
    (hspread : (account.pool.acquire S.recorded world).pool.index.Spread)
    (hspread' : (account'.pool.acquire S'.recorded world').pool.index.Spread)
    (hconcert : (account.pool.acquire S.recorded world).InConcert
      (account'.pool.acquire S'.recorded world').toReply world.supply.calls world'.supply.calls) :
    ServedAlike (account.serve S.recorded world .acquire)
      (account'.serve S'.recorded world' .acquire)
      world.supply.calls world'.supply.calls := by
  obtain ⟨hevents, hdestroyed, hecho⟩ := hconcert
  cases h with
  | failed stop larger larger' free free' hresult hresult' hwithin hpool htwins =>
      simp only [Account.serve, handOut, hresult, hresult']
      exact ⟨rfl, ⟨hevents, hdestroyed, hecho⟩, larger, larger', free, free', hwithin, hpool,
        htwins⟩
  | handed item item' free free' hresult hresult' hmatch htwins =>
      simp only [Account.serve, handOut, hresult, hresult']
      refine ⟨?_, ⟨hevents, hdestroyed, hecho⟩, _, _, free, free', .refl _, rfl, htwins⟩
      simp only [Except.map, Outcome.map, hmatch.locate?_eq hspread hspread']

theorem serve_insert (value : T.Value)
    (h : account.AcquiredAlike account' (account.pool.acquire S.recorded world)
      (account'.pool.acquire S'.recorded world'))
    (hspread : (account.pool.acquire S.recorded world).pool.index.Spread)
    (hspread' : (account'.pool.acquire S'.recorded world').pool.index.Spread)
    (hconcert : (account.pool.acquire S.recorded world).InConcert
      (account'.pool.acquire S'.recorded world').toReply world.supply.calls world'.supply.calls) :
    ServedAlike (account.serve S.recorded world (.insert value))
      (account'.serve S'.recorded world' (.insert value)) world.supply.calls
      world'.supply.calls := by
  obtain ⟨hevents, hdestroyed, hecho⟩ := hconcert
  cases h with
  | failed stop larger larger' free free' hresult hresult' hwithin hpool htwins =>
      simp only [Account.serve, handOut, Pool.insert, hresult, hresult']
      refine ⟨rfl, ⟨hevents, ?_, hecho⟩, larger, larger', free, free', hwithin, hpool, htwins⟩
      rw [hdestroyed]
  | handed item item' free free' hresult hresult' hmatch htwins =>
      have haligned := htwins.left.eight_dvd_held hspread List.mem_cons_self
      have haligned' := htwins.right.eight_dvd_held hspread' List.mem_cons_self
      -- the items are handed out first, and then written into
      have hentered := htwins.enter hspread hspread' hmatch List.mem_cons_self
        (.store haligned _ value) (.store haligned' _ value)
        (fun _ h => ItemType.load_of_stored h _ _) (fun _ h => ItemType.load_of_stored h _ _)
      simp only [Function.update_idem] at hentered
      simp only [Account.serve, handOut, Pool.insert, hresult, hresult']
      refine ⟨?_, ⟨hevents, hdestroyed, hecho⟩, _, _, free, free', .refl _, rfl, hentered⟩
      simp only [Except.map, Outcome.map, hmatch.locate?_eq hspread hspread']

/-- A value that is known is in both of two items that match. -/
theorem load_eq (h : account.Twins account' world.memory world'.memory free free')
    (hspread : account.pool.index.Spread) (hspread' : account'.pool.index.Spread)
    {item item' : Nat} (hmatch : account.pool.index.Matches account'.pool.index item item')
    (hitem : item ∈ account.held) (hknown : (account.contents item).isSome) :
    T.load world'.memory item' = T.load world.memory item := by
  obtain ⟨value, hvalue⟩ := Option.isSome_iff_exists.mp hknown
  have hvalue' := (h.contents_eq item item' hmatch hitem).trans hvalue
  have hitem' := h.mem_held hspread hspread' hmatch hitem
  rw [h.left.values item hitem value hvalue, h.right.values item' hitem' value hvalue']

theorem serve_remove (h : account.Twins account' world.memory world'.memory free free')
    (hspread : account.pool.index.Spread) (hspread' : account'.pool.index.Spread)
    {item item' : Nat} (hmatch : account.pool.index.Matches account'.pool.index item item')
    (hitem : item ∈ account.held) (hknown : (account.contents item).isSome) :
    ServedAlike (account.serve S.recorded world (.remove item))
      (account'.serve S'.recorded world' (.remove item')) world.supply.calls
      world'.supply.calls := by
  have hload := h.load_eq hspread hspread' hmatch hitem hknown
  cases hfinalise : T.finalise (T.load world.memory item).val with
  | some message =>
      simp only [Account.serve, Pool.remove, takeBack, hload, hfinalise]
      exact ⟨rfl, ⟨rfl, rfl, .refl _ _⟩, _, _, free, free', .refl _, rfl,
        h.enter hspread hspread' hmatch hitem (.refl _ _) (.refl _ _) (by simp) (by simp)⟩
  | none =>
      simp only [Account.serve, Pool.remove, hload, hfinalise]
      exact ⟨rfl, ⟨rfl, rfl, .refl _ _⟩, _, _, item :: free, item' :: free', .refl _, rfl,
        h.release hspread hspread' hmatch hitem⟩

theorem serve_write (h : account.Twins account' world.memory world'.memory free free')
    (hspread : account.pool.index.Spread) (hspread' : account'.pool.index.Spread)
    {item item' : Nat} (hmatch : account.pool.index.Matches account'.pool.index item item')
    (hitem : item ∈ account.held) (value : T.Value) :
    ServedAlike (account.serve S.recorded world (.write item value))
      (account'.serve S'.recorded world' (.write item' value)) world.supply.calls
      world'.supply.calls := by
  have hitem' := h.mem_held hspread hspread' hmatch hitem
  have haligned := h.left.eight_dvd_held hspread hitem
  have haligned' := h.right.eight_dvd_held hspread' hitem'
  exact ⟨rfl, ⟨rfl, rfl, .refl _ _⟩, _, _, free, free', .refl _, rfl,
    h.enter hspread hspread' hmatch hitem (.store haligned _ value) (.store haligned' _ value)
      (fun _ h => ItemType.load_of_stored h _ _) (fun _ h => ItemType.load_of_stored h _ _)⟩

/-- Where a value is known, what it becomes is known too, and it is the same in both. -/
theorem serve_scribble (h : account.Twins account' world.memory world'.memory free free')
    (hspread : account.pool.index.Spread) (hspread' : account'.pool.index.Spread)
    {item item' offset : Nat} {words : List Nat}
    (hmatch : account.pool.index.Matches account'.pool.index item item')
    (hitem : item ∈ account.held) (hoffset : 8 ∣ offset)
    (hfits : offset + 8 * words.length ≤ T.size) :
    ServedAlike (account.serve S.recorded world (.scribble item offset words))
      (account'.serve S'.recorded world' (.scribble item' offset words)) world.supply.calls
      world'.supply.calls := by
  have hitem' := h.mem_held hspread hspread' hmatch hitem
  have haligned := h.left.eight_dvd_held hspread hitem
  have haligned' := h.right.eight_dvd_held hspread' hitem'
  have hsame := h.contents_eq _ _ hmatch hitem
  have hentered := h.enter hspread hspread' hmatch hitem
    (.writeRow haligned hoffset hfits world.memory)
    (.writeRow haligned' hoffset hfits world'.memory)
    (fun _ hvalue =>
      ItemType.load_of_overwritten haligned hoffset (h.left.values _ hitem) hvalue)
    (fun _ hvalue =>
      ItemType.load_of_overwritten haligned' hoffset (hsame ▸ h.right.values _ hitem') hvalue)
  simp only [Account.serve, answer, hsame]
  exact ⟨rfl, ⟨rfl, rfl, .refl _ _⟩, _, _, free, free', .refl _, rfl, hentered⟩

theorem serve_grow (h : account.Twins account' world.memory world'.memory free free')
    (capacity : Capacity)
    (hspread : (account.pool.grow S.recorded capacity world).pool.index.Spread)
    (hspread' : (account'.pool.grow S'.recorded capacity world').pool.index.Spread)
    (hleft : Heard tape rest world.supply.calls
      (account.pool.grow S.recorded capacity world).world.supply.calls)
    (hright : Heard tape rest' world'.supply.calls
      (account'.pool.grow S'.recorded capacity world').world.supply.calls) :
    ServedAlike (account.serve S.recorded world (.grow capacity))
      (account'.serve S'.recorded world' (.grow capacity)) world.supply.calls
      world'.supply.calls := by
  obtain ⟨hresult, hbuild, hevents, hdestroyed, hecho⟩ := h.build.grow capacity hleft hright
  obtain ⟨added, added', htwins, -⟩ := h.grow (account.pool.grow_growth S capacity world)
    (account'.pool.grow_growth S' capacity world') hresult hbuild hspread hspread'
  refine ⟨?_, ⟨hevents, hdestroyed, hecho⟩, _, _, _, _, .refl _, rfl, htwins⟩
  simp only [Account.serve, hresult]
  cases (account.pool.grow S.recorded capacity world).result with
  | error stop => rfl
  | ok done => rfl

theorem serve_destroy (h : account.Twins account' world.memory world'.memory free free')
    (hleft : Heard tape rest world.supply.calls
      (account.pool.destroy S.recorded world).world.supply.calls)
    (hright : Heard tape rest' world'.supply.calls
      (account'.pool.destroy S'.recorded world').world.supply.calls) :
    ServedAlike (account.serve S.recorded world .destroy)
      (account'.serve S'.recorded world' .destroy) world.supply.calls world'.supply.calls := by
  obtain ⟨hresult, hbuild, hevents, hdestroyed, hecho⟩ := h.build.destroy hleft hright
  have hempty : (account.pool.destroy S.recorded world).pool.index.slabs = [] ∧
      (account.pool.destroy S.recorded world).pool.free = {} ∧
      (account'.pool.destroy S'.recorded world').pool.free = {} ∧
      (account'.pool.destroy S'.recorded world').pool.acquired =
        (account.pool.destroy S.recorded world).pool.acquired := by
    rcases hdone : (account.pool.destroy S.recorded world).result with stop | ⟨⟩
    · rw [Pool.destroy_of_error S.recorded hdone,
        Pool.destroy_of_error S'.recorded (hresult.trans hdone)]
      exact ⟨rfl, rfl, rfl, h.acquired_eq⟩
    · rw [Pool.destroy_of_ok S.recorded hdone, Pool.destroy_of_ok S'.recorded (hresult.trans hdone)]
      exact ⟨rfl, rfl, rfl, rfl⟩
  obtain ⟨hslabs, hfree, hfree', hacquired⟩ := hempty
  refine ⟨?_, ⟨hevents, hdestroyed, hecho⟩, _, _, [], [], .refl _, rfl,
    .empty hbuild hslabs hfree hfree' hacquired _ _⟩
  simp only [Account.serve, hresult]
  cases (account.pool.destroy S.recorded world).result with
  | error stop => rfl
  | ok done => rfl

/-- Twins are served alike. -/
theorem serve (h : account.Twins account' world.memory world'.memory free free')
    (request : Request T Place) (hpermits : account.PermitsAt request)
    (hspread : account.pool.index.Spread) (hspread' : account'.pool.index.Spread)
    (hafter : (account.serve S.recorded world
      (request.map account.resolve)).account.pool.index.Spread)
    (hafter' : (account'.serve S'.recorded world'
      (request.map account'.resolve)).account.pool.index.Spread)
    (hleft : Heard tape rest world.supply.calls
      (account.serve S.recorded world (request.map account.resolve)).world.supply.calls)
    (hright : Heard tape rest' world'.supply.calls
      (account'.serve S'.recorded world' (request.map account'.resolve)).world.supply.calls) :
    ServedAlike (account.serve S.recorded world (request.map account.resolve))
      (account'.serve S'.recorded world' (request.map account'.resolve)) world.supply.calls
      world'.supply.calls := by
  obtain ⟨hpermits, hknown⟩ := hpermits
  cases request with
  | acquire =>
      have hpool := account.handOut_pool none (account.pool.acquire S.recorded world)
      have hpool' := account'.handOut_pool none (account'.pool.acquire S'.recorded world')
      have hgrown : (account.pool.acquire S.recorded world).pool.index.Spread := hpool ▸ hafter
      have hgrown' : (account'.pool.acquire S'.recorded world').pool.index.Spread :=
        hpool' ▸ hafter'
      obtain ⟨hconcert, hacquired⟩ :=
        h.acquire hgrown hgrown' hspread hspread' hleft hright
      exact serve_acquire hacquired hgrown hgrown' hconcert
  | insert value =>
      obtain ⟨hpool, hsupply⟩ := account.pool.insert_backing S.recorded value world
      obtain ⟨hpool', hsupply'⟩ := account'.pool.insert_backing S'.recorded value world'
      have hgrown : (account.pool.acquire S.recorded world).pool.index.Spread :=
        hpool ▸ account.handOut_pool (some value) _ ▸ hafter
      have hgrown' : (account'.pool.acquire S'.recorded world').pool.index.Spread :=
        hpool' ▸ account'.handOut_pool (some value) _ ▸ hafter'
      have hheard : Heard tape rest world.supply.calls
          (account.pool.acquire S.recorded world).world.supply.calls := hsupply ▸ hleft
      have hheard' : Heard tape rest' world'.supply.calls
          (account'.pool.acquire S'.recorded world').world.supply.calls := hsupply' ▸ hright
      obtain ⟨hconcert, hacquired⟩ := h.acquire hgrown hgrown' hspread hspread' hheard hheard'
      exact serve_insert value hacquired hgrown hgrown' hconcert
  | release place =>
      exact ⟨rfl, ⟨rfl, rfl, .refl _ _⟩, _, _, _, _, .refl _, rfl,
        h.release hspread hspread' (h.matches_resolve hspread hpermits) hpermits⟩
  | remove place =>
      exact h.serve_remove hspread hspread' (h.matches_resolve hspread hpermits) hpermits hknown
  | grow capacity => exact h.serve_grow capacity hafter hafter' hleft hright
  | check =>
      simp only [Request.map, Account.serve, h.left.check_eq_ok hspread,
        h.right.check_eq_ok hspread']
      exact ⟨rfl, ⟨rfl, rfl, .refl _ _⟩, _, _, _, _, .refl _, rfl, h⟩
  | destroy => exact h.serve_destroy hleft hright
  | read place =>
      have hload := h.load_eq hspread hspread' (h.matches_resolve hspread hpermits) hpermits hknown
      refine ⟨?_, ⟨rfl, rfl, .refl _ _⟩, _, _, _, _, .refl _, rfl, h⟩
      simp only [Request.map, Account.serve, answer, hload]
      rfl
  | write place value =>
      exact h.serve_write hspread hspread' (h.matches_resolve hspread hpermits) hpermits value
  | scribble place offset words =>
      obtain ⟨hitem, hoffset, hfits⟩ := hpermits
      exact h.serve_scribble hspread hspread' (h.matches_resolve hspread hitem) hitem hoffset hfits

end Twins

/-! ### Pairs -/

variable {account account' : Account T α} {memory memory' : Memory}
  {S : Supply α σ} {S' : Supply α τ} {world : World (Recorded α σ)} {world' : World (Recorded α τ)}
  {tape rest rest' : List Verdict}

/-- The first account is within one of two twins, and the pool of the second is that of the
other. -/
def Paired (account account' : Account T α) (memory memory' : Memory) : Prop :=
  ∃ larger larger' free free', account.Within larger ∧ larger'.pool = account'.pool ∧
    larger.Twins larger' memory memory' free free'

/-- What is not in the slots of either pool does not matter. -/
theorem Paired.congr (h : account.Paired account' memory memory') {after after' : Memory}
    (hkeeps : ∀ item ∈ account.pool.index.slots, T.Keeps item memory after)
    (hkeeps' : ∀ item ∈ account'.pool.index.slots, T.Keeps item memory' after') :
    account.Paired account' after after' := by
  obtain ⟨larger, larger', free, free', hwithin, hpool, htwins⟩ := h
  rw [← hwithin.pool_eq] at hkeeps
  rw [← hpool] at hkeeps'
  exact ⟨larger, larger', free, free', hwithin, hpool, htwins.left.congr hkeeps,
    htwins.right.congr hkeeps', htwins.build, htwins.acquired_eq, htwins.free_matches,
    htwins.contents_eq⟩

theorem resolve_congr (h : account'.pool = account.pool) : account'.resolve = account.resolve := by
  funext place
  rw [resolve, resolve, h]

theorem Paired.sameBuild (h : account.Paired account' memory memory') :
    account.pool.SameBuild account'.pool := by
  obtain ⟨larger, larger', free, free', hwithin, hpool, htwins⟩ := h
  exact hwithin.pool_eq ▸ hpool ▸ htwins.build

/-- Nobody can tell the pools of a pair apart by what is seen of them. -/
theorem Paired.report_eq (h : account.Paired account' memory memory')
    {result result' : Except Stop (Outcome T Nat)}
    (hresult : result'.map (Outcome.map account'.pool.index.locate?) =
      result.map (Outcome.map account.pool.index.locate?)) :
    account'.report result' = account.report result := by
  obtain ⟨larger, larger', free, free', hwithin, hpool, htwins⟩ := h
  have hcapacities := htwins.build.capacities_eq
  have hacquired := htwins.acquired_eq
  have hfree := htwins.hasFree_eq
  rw [hwithin.pool_eq, hpool] at hcapacities hacquired hfree
  rw [report, report, hresult, hcapacities, hacquired, hfree]

theorem ServedAlike.notice_eq {served : Served T α (Recorded α σ)}
    {served' : Served T α (Recorded α τ)} {before before' : List (Call α)}
    (h : ServedAlike served served' before before') : served'.notice = served.notice := by
  have hreport := Paired.report_eq h.twins h.result_eq
  rw [Served.notice, Served.notice, hreport, h.concert.events_eq, h.concert.destroyed_eq]

/-- Only the pool shows in what is noticed, and not the books beside it. -/
theorem notice_congr {served other : Served T α σ} (hreply : other.toReply = served.toReply)
    (hpool : other.account.pool = served.account.pool) : other.notice = served.notice := by
  rw [Served.notice, Served.notice, report, report, hreply, hpool]

theorem Within.permitsAt {larger : Account T α} (h : account.Within larger)
    {request : Request T Place} (hpermits : account.PermitsAt request) :
    larger.PermitsAt request := by
  obtain ⟨hrequest, hknown⟩ := hpermits
  rw [← resolve_congr h.pool_eq] at hrequest
  refine ⟨h.permits hrequest, ?_⟩
  cases request with
  | remove place | read place =>
      dsimp only at hknown ⊢
      rw [← resolve_congr h.pool_eq] at hknown
      rw [h.contents _ hrequest]
      exact hknown
  | acquire | insert | release | grow | check | destroy | write | scribble => trivial

/-- A request to both of a pair is answered alike, and they are a pair again. -/
theorem Paired.serve (h : account.Paired account' world.memory world'.memory)
    (request : Request T Place) (hpermits : account.PermitsAt request)
    (hspread : account.pool.index.Spread) (hspread' : account'.pool.index.Spread)
    (hafter : (account.serve S.recorded world
      (request.map account.resolve)).account.pool.index.Spread)
    (hafter' : (account'.serve S'.recorded world'
      (request.map account'.resolve)).account.pool.index.Spread)
    (hleft : Heard tape rest world.supply.calls
      (account.serve S.recorded world (request.map account.resolve)).world.supply.calls)
    (hright : Heard tape rest' world'.supply.calls
      (account'.serve S'.recorded world' (request.map account'.resolve)).world.supply.calls) :
    let served := account.serve S.recorded world (request.map account.resolve)
    let served' := account'.serve S'.recorded world' (request.map account'.resolve)
    served'.notice = served.notice ∧
      Echo world.supply.calls served.world.supply.calls world'.supply.calls
        served'.world.supply.calls ∧
      served.account.Paired served'.account served.world.memory served'.world.memory := by
  intro served served'
  obtain ⟨larger, larger', free, free', hwithin, hpool, htwins⟩ := h
  obtain ⟨hreply, hown⟩ :=
    serve_congr S.recorded hwithin.pool_eq world (request.map account.resolve)
  obtain ⟨hreply', hown'⟩ := serve_congr S'.recorded hpool world' (request.map account'.resolve)
  have halike : ServedAlike (larger.serve S.recorded world (request.map account.resolve))
      (larger'.serve S'.recorded world' (request.map account'.resolve)) world.supply.calls
      world'.supply.calls := by
    rw [← hreply] at hleft
    rw [← hreply'] at hright
    rw [← hown] at hafter
    rw [← hown'] at hafter'
    rw [← resolve_congr hwithin.pool_eq] at hleft hafter ⊢
    rw [← resolve_congr hpool] at hright hafter' ⊢
    exact htwins.serve request (hwithin.permitsAt hpermits) (hwithin.pool_eq ▸ hspread)
      (hpool ▸ hspread') hafter hafter' hleft hright
  refine ⟨?_, ?_, ?_⟩
  · have hnotice := halike.notice_eq
    rwa [notice_congr hreply hown, notice_congr hreply' hown'] at hnotice
  · have hecho := halike.concert.echo
    rwa [hreply, hreply'] at hecho
  · obtain ⟨largest, largest', rest, rest', hlargest, hpool', htwins'⟩ := halike.twins
    rw [hreply, hreply'] at htwins'
    exact ⟨largest, largest', rest, rest',
      (hwithin.serve S.recorded world hpermits.1.held_of_overwrites).trans hlargest,
      hpool'.trans hown', htwins'⟩

theorem paired_new (allocator : α) (memory memory' : Memory) :
    Paired ({ pool := { allocator } } : Account T α) { pool := { allocator } } memory memory' :=
  ⟨_, _, [], [], .refl _, rfl, .empty ⟨rfl, rfl, rfl⟩ rfl rfl rfl rfl memory memory'⟩

/-- Two pools that are made by the same blueprint are a pair, or neither is made. -/
theorem paired_build (plan : Blueprint α)
    (hspread : ∀ pool, (plan.build S.recorded T world).result = .ok pool → pool.index.Spread)
    (hspread' : ∀ pool, (plan.build S'.recorded T world').result = .ok pool → pool.index.Spread)
    (hleft : Heard tape rest world.supply.calls
      (plan.build S.recorded T world).world.supply.calls)
    (hright : Heard tape rest' world'.supply.calls
      (plan.build S'.recorded T world').world.supply.calls) :
    let reply := plan.build S.recorded T world
    let reply' := plan.build S'.recorded T world'
    reply.InConcert reply' world.supply.calls world'.supply.calls ∧
      ((∃ stop, reply.result = .error stop ∧ reply'.result = .error stop) ∨
        ∃ pool pool', reply.result = .ok pool ∧ reply'.result = .ok pool' ∧
          Paired { pool } { pool := pool' } reply.world.memory reply'.world.memory) := by
  intro reply reply'
  cases hinitial : plan.initial with
  | none =>
      simp only [reply, reply', Blueprint.build, hinitial]
      exact ⟨⟨rfl, rfl, .refl _ _⟩, .inr ⟨_, _, rfl, rfl, paired_new _ _ _⟩⟩
  | some capacity =>
      simp only [Blueprint.build, hinitial] at hspread hspread' hleft hright
      have hnew : Twins ({ pool := { allocator := plan.allocator } } : Account T α)
          { pool := { allocator := plan.allocator } } world.memory world'.memory [] [] :=
        .empty ⟨rfl, rfl, rfl⟩ rfl rfl rfl rfl _ _
      obtain ⟨hresult, hbuild, hevents, hdestroyed, hecho⟩ :=
        hnew.build.grow capacity hleft hright
      simp only [reply, reply', Blueprint.build, hinitial]
      refine ⟨⟨hevents, hdestroyed, hecho⟩, ?_⟩
      dsimp only at hresult
      rw [hresult] at hspread' ⊢
      rcases hdone : (Pool.grow S.recorded { allocator := plan.allocator } capacity world).result
        with stop | ⟨⟩
      · exact .inl ⟨stop, rfl, rfl⟩
      · rw [hdone] at hspread hspread'
        obtain ⟨added, added', htwins, -⟩ := hnew.grow (Pool.grow_growth S _ capacity world)
          (Pool.grow_growth S' _ capacity world') hresult hbuild (hspread _ rfl) (hspread' _ rfl)
        exact .inr ⟨_, _, rfl, rfl, _, _, _, _, .refl _, rfl, htwins⟩

end Account

end SlabPool
