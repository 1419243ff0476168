import SlabPool.Proofs.Account.Sound

/-!
Slots that are asked for, and the counts that go with them.

A request for a slot is met from the free list if there is anything on it, and by a new slab of
`nextGrowth` slots if not; where that slab cannot be had, nothing changes. `Account.Supplied` lists
the three with all that they do to the counts: the slabs, the slots handed out so far and the items
in use. It is all that later modules know of `acquire` and `insert` where they are about sizes and
numbers.

`Account.Counted` goes over all requests; from it follows that there are never more items in use
than there were acquisitions (`Account.Counted.held_le`).
-/

namespace SlabPool

variable {T : ItemType} {α σ : Type}

/-! ### Acquisitions -/

/-- What acquiring a slot can come to. -/
inductive Pool.Acquisition (S : Supply α σ) (pool : Pool T α) (world : World (Recorded α σ))
    (turn : Turn T α (Recorded α σ) Nat) : Prop
  | reused (item : Nat)
      (head_eq : pool.free.head = some item)
      (result_eq : turn.result = .ok item)
      (slabs_eq : turn.pool.index.slabs = pool.index.slabs)
      (acquired_eq : turn.pool.acquired = pool.acquired + 1)
  | grown (slab : Slab T)
      (head_eq : pool.free.head = none)
      (growth_eq : (pool.grow S.recorded pool.nextGrowth world).result = .ok ())
      (result_eq : turn.result = .ok slab.first)
      (slabs_eq : turn.pool.index.slabs = pool.index.slabs ++ [slab])
      (capacity_eq : slab.capacity = pool.nextGrowth)
      (acquired_eq : turn.pool.acquired = pool.acquired + 1)
  | refused (reason stop : Stop)
      (head_eq : pool.free.head = none)
      (growth_eq : (pool.grow S.recorded pool.nextGrowth world).result = .error reason)
      (result_eq : turn.result = .error stop)
      (slabs_eq : turn.pool.index.slabs = pool.index.slabs)
      (acquired_eq : turn.pool.acquired = pool.acquired)

theorem Pool.acquire_acquisition (S : Supply α σ) {pool : Pool T α}
    (world : World (Recorded α σ)) (hcount : pool.acquired < Word.max) :
    pool.Acquisition S world (pool.acquire S.recorded world) := by
  cases hhead : pool.free.head with
  | some item =>
      rw [Pool.acquire_of_head S.recorded hhead hcount]
      exact .reused item hhead rfl rfl rfl
  | none =>
      cases pool.grow_growth S pool.nextGrowth world with
      | failed stop reserved hresult hpool _ _ =>
          rw [Pool.acquire_of_failed S.recorded hhead hresult]
          exact .refused stop stop hhead hresult rfl (by rw [hpool]) (by rw [hpool])
      | added slab reserved longer calls hresult hcapacity _ hlinked hpool _ _ =>
          have hturn := Pool.acquire_of_added S.recorded hhead hresult
          generalize pool.grow S.recorded pool.nextGrowth world = growth at hturn hlinked hpool
          -- the first slot of the new slab is at the head of the list
          rw [FreeList.pushRow_of_pos slab.capacity.property] at hlinked
          have hfirst : growth.pool.free.head = some slab.first := by
            rw [hpool]
            simp only [Except.ok.injEq, Prod.mk.injEq] at hlinked
            rw [← hlinked.1]
          have hacquired : growth.pool.acquired = pool.acquired := by rw [hpool]
          have htake := Pool.take_of_head hfirst (hacquired ▸ hcount) growth.world.memory
          rw [hturn]
          simp only [htake]
          exact .grown slab hhead hresult rfl (by rw [hpool]) hcapacity (by rw [hacquired])

/-- An insertion is an acquisition, as far as the counts go. -/
theorem Pool.insert_acquisition (S : Supply α σ) {pool : Pool T α} (value : T.Value)
    (world : World (Recorded α σ)) (hcount : pool.acquired < Word.max) :
    pool.Acquisition S world (pool.insert S.recorded value world) := by
  have hpool := (pool.insert_backing S.recorded value world).1
  cases pool.acquire_acquisition S world hcount with
  | reused item hhead hresult hslabs hacquired =>
      refine .reused item hhead ?_ (hpool ▸ hslabs) (hpool ▸ hacquired)
      simp only [Pool.insert, hresult]
  | grown slab hhead hgrowth hresult hslabs hcapacity hacquired =>
      refine .grown slab hhead hgrowth ?_ (hpool ▸ hslabs) hcapacity (hpool ▸ hacquired)
      simp only [Pool.insert, hresult]
  | refused reason stop hhead hgrowth hresult hslabs hacquired =>
      refine .refused reason (stop.afterDiscard (T.finalise value.val)) hhead hgrowth ?_
        (hpool ▸ hslabs) (hpool ▸ hacquired)
      simp only [Pool.insert, hresult]

namespace Account

theorem serve_pool_of_takes (S : Supply α σ) (account : Account T α) (world : World σ)
    {request : Request T Nat} (htakes : request.takes = true) :
    (account.serve S world request).account.pool = (account.pool.acquire S world).pool := by
  cases request with
  | acquire => exact account.handOut_pool _ _
  | insert value =>
      exact (account.handOut_pool _ _).trans (account.pool.insert_backing S value world).1
  | release | remove | grow | check | destroy | read | write | scribble => cases htakes

/-- What a request for a slot does to the counts of an account. -/
inductive Supplied (account : Account T α) (free : List Nat)
    (served : Served T α (Recorded α σ)) : Prop
  | reused (item : Nat) (rest : List Nat)
      (free_eq : free = item :: rest)
      (held_eq : served.account.held = item :: account.held)
      (slabs_eq : served.account.pool.index.slabs = account.pool.index.slabs)
      (acquired_eq : served.account.pool.acquired = account.pool.acquired + 1)
  | grown (slab : Slab T)
      (free_eq : free = [])
      (held_eq : served.account.held = slab.first :: account.held)
      (slabs_eq : served.account.pool.index.slabs = account.pool.index.slabs ++ [slab])
      (capacity_eq : slab.capacity = account.pool.nextGrowth)
      (acquired_eq : served.account.pool.acquired = account.pool.acquired + 1)
  | refused
      (free_eq : free = [])
      (held_eq : served.account.held = account.held)
      (slabs_eq : served.account.pool.index.slabs = account.pool.index.slabs)
      (acquired_eq : served.account.pool.acquired = account.pool.acquired)

variable {account : Account T α} {free : List Nat}

theorem supplied_of_acquisition (S : Supply α σ) {world : World (Recorded α σ)}
    {value : Option T.Value} {turn : Turn T α (Recorded α σ) Nat}
    (hholds : account.pool.free.Holds world.memory free)
    (h : account.pool.Acquisition S world turn) :
    account.Supplied free (account.handOut value turn) := by
  have hpool := account.handOut_pool value turn
  cases h with
  | reused item hhead hresult hslabs hacquired =>
      obtain ⟨rest, hfree⟩ := hholds.eq_cons hhead
      refine .reused item rest hfree ?_ (hpool ▸ hslabs) (hpool ▸ hacquired)
      simp only [handOut, hresult]
  | grown slab hhead _ hresult hslabs hcapacity hacquired =>
      refine .grown slab (hholds.eq_nil hhead) ?_ (hpool ▸ hslabs) hcapacity (hpool ▸ hacquired)
      simp only [handOut, hresult]
  | refused reason stop hhead _ hresult hslabs hacquired =>
      refine .refused (hholds.eq_nil hhead) ?_ (hpool ▸ hslabs) (hpool ▸ hacquired)
      simp only [handOut, hresult]

theorem supplied_of_takes (S : Supply α σ) {world : World (Recorded α σ)} {request : Request T Nat}
    (htakes : request.takes = true) (hholds : account.pool.free.Holds world.memory free)
    (hcounted : account.PermitsCounted request) :
    account.Supplied free (account.serve S.recorded world request) := by
  cases request with
  | acquire =>
      exact supplied_of_acquisition S hholds
        (Pool.acquire_acquisition S world (hcounted.2 rfl))
  | insert value =>
      exact supplied_of_acquisition S hholds
        (Pool.insert_acquisition S value world (hcounted.2 rfl))
  | release | remove | grow | check | destroy | read | write | scribble => cases htakes

/-! ### All requests -/

/-- What a request does to the counts of an account, whatever it is. -/
inductive Counted (account : Account T α) (free : List Nat) (request : Request T Nat)
    (served : Served T α (Recorded α σ)) : Prop
  | taken
      (takes : request.takes = true)
      (supplied : account.Supplied free served)
  | kept
      (takes : request.takes = false)
      (request_ne : request ≠ .destroy)
      (slabs_grow : account.pool.index.slabs <+: served.account.pool.index.slabs)
      (acquired_eq : served.account.pool.acquired = account.pool.acquired)
      (held_le : served.account.held.length ≤ account.held.length)
  | ended
      (request_eq : request = .destroy)
      (slabs_eq : served.account.pool.index.slabs = [])
      (held_eq : served.account.held = [])

theorem acquired_serve_of_not_takes (S : Supply α σ) (account : Account T α)
    (world : World (Recorded α σ)) {request : Request T Nat} (htakes : request.takes = false)
    (hdestroy : request ≠ .destroy) :
    (account.serve S.recorded world request).account.pool.acquired = account.pool.acquired := by
  cases request with
  | acquire | insert => cases htakes
  | release item => exact congrArg (·.acquired) (account.takeBack_pool item _)
  | remove item =>
      rw [serve, takeBack_pool]
      exact account.pool.acquired_remove item world
  | grow capacity => exact account.pool.acquired_grow S capacity world
  | check =>
      simp only [serve]
      split
      · rfl
      · rfl
  | destroy => exact absurd rfl hdestroy
  | read | write | scribble => rfl

theorem takeBack_counts (account : Account T α) (item : Nat) (turn : Turn T α σ Unit)
    (hindex : turn.pool.index = account.pool.index)
    (hacquired : turn.pool.acquired = account.pool.acquired) :
    let after := (account.takeBack item turn).account
    account.pool.index.slabs <+: after.pool.index.slabs ∧
      after.pool.acquired = account.pool.acquired ∧ after.held.length ≤ account.held.length := by
  simp only [takeBack]
  split
  · exact ⟨hindex ▸ List.prefix_rfl, hacquired, List.length_erase_le⟩
  · exact ⟨hindex ▸ List.prefix_rfl, hacquired, Nat.le_refl _⟩

theorem serve_counted (S : Supply α σ) {world : World (Recorded α σ)}
    (hholds : account.pool.free.Holds world.memory free) {request : Request T Nat}
    (hcounted : account.PermitsCounted request) :
    account.Counted free request (account.serve S.recorded world request) := by
  cases request with
  | acquire => exact .taken rfl (supplied_of_takes S rfl hholds hcounted)
  | insert value => exact .taken rfl (supplied_of_takes S rfl hholds hcounted)
  | release item =>
      obtain ⟨hslabs, hacquired, hheld⟩ :=
        account.takeBack_counts item (account.pool.release item world) rfl rfl
      exact .kept rfl (by simp) hslabs hacquired hheld
  | remove item =>
      have hindex : (account.pool.remove item world).pool.index = account.pool.index :=
        (account.pool.remove_backing item world).1
      obtain ⟨hslabs, hacquired, hheld⟩ :=
        account.takeBack_counts item _ hindex (account.pool.acquired_remove item world)
      exact .kept rfl (by simp) hslabs hacquired hheld
  | grow capacity =>
      have hgrowth := account.pool.grow_growth S capacity world
      generalize hturn : account.pool.grow S.recorded capacity world = turn at hgrowth
      simp only [serve, hturn]
      cases hgrowth with
      | failed stop reserved _ hpool _ _ =>
          exact .kept rfl (by simp) (by rw [hpool]) (by rw [hpool]) (Nat.le_refl _)
      | added slab reserved longer calls _ _ _ _ hpool _ _ =>
          refine .kept rfl (by simp) ?_ (by rw [hpool]) (Nat.le_refl _)
          rw [hpool]
          exact List.prefix_append _ _
  | check =>
      simp only [serve]
      split
      · exact .kept rfl (by simp) List.prefix_rfl rfl (Nat.le_refl _)
      · exact .kept rfl (by simp) List.prefix_rfl rfl (Nat.le_refl _)
  | destroy =>
      obtain ⟨hslabs, -⟩ := account.pool.emptied_destroy S.recorded world
      exact .ended rfl hslabs rfl
  | read | write | scribble =>
      exact .kept rfl (by simp) List.prefix_rfl rfl (Nat.le_refl _)

/-- There are no more items than there were acquisitions. -/
theorem Counted.held_le {request : Request T Nat} {served : Served T α (Recorded α σ)}
    (h : account.Counted free request served)
    (hheld : account.held.length ≤ account.pool.acquired) :
    served.account.held.length ≤ served.account.pool.acquired := by
  cases h with
  | taken _ hsupplied =>
      cases hsupplied with
      | reused item rest _ hitems _ hacquired =>
          rw [hitems, hacquired, List.length_cons]
          omega
      | grown slab _ hitems _ _ hacquired =>
          rw [hitems, hacquired, List.length_cons]
          omega
      | refused _ hitems _ hacquired => rwa [hitems, hacquired]
  | kept _ _ _ hacquired hitems =>
      rw [hacquired]
      exact hitems.trans hheld
  | ended _ _ hitems =>
      rw [hitems]
      exact Nat.zero_le _

end Account

end SlabPool
