import SlabPool.Proofs.Demand

/-!
Growth that fails.

A request makes its pool grow if it says so itself (`Request.grow`), and if it asks for a slot while
none is free. Growth takes two steps, of which the first, making room to list the slab, is not
undone if the second fails, and there are several ways in which either can fail. In all of them the
request is answered with an error, and of the whole account and the whole memory nothing is
different afterwards, except that there may be more room in the list of slabs
(`Account.serve_of_failsToGrow`).
-/

namespace SlabPool

variable {T : ItemType} {α σ : Type}

/-! ### Room in the list of slabs -/

/-- The same pool, with room for so many slabs in its list. -/
def Pool.withRoom (pool : Pool T α) (room : Nat) : Pool T α :=
  { pool with index := { pool.index with reserved := room } }

def Account.withRoom (account : Account T α) (room : Nat) : Account T α :=
  { account with pool := account.pool.withRoom room }

@[simp] theorem Pool.allocator_withRoom (pool : Pool T α) (room : Nat) :
    (pool.withRoom room).allocator = pool.allocator := rfl

@[simp] theorem Pool.slabs_withRoom (pool : Pool T α) (room : Nat) :
    (pool.withRoom room).index.slabs = pool.index.slabs := rfl

@[simp] theorem Pool.free_withRoom (pool : Pool T α) (room : Nat) :
    (pool.withRoom room).free = pool.free := rfl

@[simp] theorem Pool.acquired_withRoom (pool : Pool T α) (room : Nat) :
    (pool.withRoom room).acquired = pool.acquired := rfl

@[simp] theorem Pool.nextGrowth_withRoom (pool : Pool T α) (room : Nat) :
    (pool.withRoom room).nextGrowth = pool.nextGrowth := rfl

@[simp] theorem Account.pool_withRoom (account : Account T α) (room : Nat) :
    (account.withRoom room).pool = account.pool.withRoom room := rfl

theorem SlabIndex.reserved_le_reserve (S : Supply α σ) {index grown : SlabIndex T} {supply : σ}
    (h : (index.reserve S supply).1 = some grown) : index.reserved ≤ grown.reserved := by
  simp only [SlabIndex.reserve] at h
  split at h
  · cases h
    exact Nat.le_refl _
  · split at h
    · cases h
      simp only [SlabIndex.nextReserved]
      omega
    · cases h

/-- Growth does not give up room. -/
theorem Pool.reserved_le_grow (S : Supply α σ) (pool : Pool T α) (capacity : Capacity)
    (world : World σ) :
    pool.index.reserved ≤ (pool.grow S capacity world).pool.index.reserved := by
  simp only [Pool.grow]
  rcases hreserve : pool.index.reserve S world.supply with ⟨_ | index, supply⟩
  · exact Nat.le_refl _
  · have hle : pool.index.reserved ≤ index.reserved :=
      SlabIndex.reserved_le_reserve S (by rw [hreserve])
    dsimp only
    split
    · exact hle
    · exact hle
    · split
      · exact hle
      · exact hle

/-- Where growth fails, there may be more room in the list of slabs, and that is all. -/
theorem Pool.grow_of_error (S : Supply α σ) {pool : Pool T α} {capacity : Capacity}
    {world : World (Recorded α σ)} {stop : Stop}
    (h : (pool.grow S.recorded capacity world).result = .error stop) :
    (pool.grow S.recorded capacity world).world.memory = world.memory ∧
      ∃ room ≥ pool.index.reserved,
        (pool.grow S.recorded capacity world).pool = pool.withRoom room := by
  have hle := pool.reserved_le_grow S.recorded capacity world
  cases pool.grow_growth S capacity world with
  | failed other reserved _ hpool hmemory _ =>
      rw [hpool] at hle
      exact ⟨hmemory, reserved, hle, hpool⟩
  | added slab reserved free calls hresult _ _ _ _ _ _ =>
      rw [hresult] at h
      cases h

/-! ### Requests that fail to make a pool grow -/

/-- The number of slots that the request makes the pool grow by, if it makes it grow. -/
def Pool.demand? (pool : Pool T α) : Request T Nat → Option Capacity
  | .acquire | .insert _ => if pool.free.isEmpty then some pool.nextGrowth else none
  | .grow capacity => some capacity
  | _ => none

theorem Pool.demand?_of_none {pool : Pool T α} {request : Request T Nat}
    (htakes : request.takes = true) (hhead : pool.free.head = none) :
    pool.demand? request = some pool.nextGrowth := by
  cases request with
  | acquire | insert => simp [Pool.demand?, FreeList.isEmpty, hhead]
  | release | remove | grow | check | destroy | read | write | scribble => cases htakes

theorem Pool.demand?_of_some {pool : Pool T α} {request : Request T Nat} {item : Nat}
    (htakes : request.takes = true) (hhead : pool.free.head = some item) :
    pool.demand? request = none := by
  cases request with
  | acquire | insert => simp [Pool.demand?, FreeList.isEmpty, hhead]
  | release | remove | grow | check | destroy | read | write | scribble => cases htakes

/-- The request makes the pool grow, and growth fails, for whatever reason. -/
def Account.FailsToGrow (S : Supply α σ) (account : Account T α) (world : World σ)
    (request : Request T Nat) : Prop :=
  ∃ capacity ∈ account.pool.demand? request, ∃ stop,
    (account.pool.grow S capacity world).result = .error stop

theorem Pool.acquire_of_failing (S : Supply α σ) {pool : Pool T α} {world : World σ}
    {capacity : Capacity} {stop : Stop} (hdemand : pool.demand? .acquire = some capacity)
    (hstop : (pool.grow S capacity world).result = .error stop) :
    pool.acquire S world = { pool.grow S capacity world with result := .error stop } := by
  cases hhead : pool.free.head with
  | some item => simp [Pool.demand?, FreeList.isEmpty, hhead] at hdemand
  | none =>
      obtain rfl : pool.nextGrowth = capacity := by
        simpa [Pool.demand?, FreeList.isEmpty, hhead] using hdemand
      exact Pool.acquire_of_failed S hhead hstop

namespace Account

variable {account : Account T α} {request : Request T Nat}

/-- A request for which no storage can be had is answered with an error and leaves everything as it
was. -/
theorem serve_of_failsToGrow (S : Supply α σ) {world : World (Recorded α σ)}
    (h : account.FailsToGrow S.recorded world request) :
    let served := account.serve S.recorded world request
    (∃ stop, served.result = .error stop) ∧ served.world.memory = world.memory ∧
      ∃ room ≥ account.pool.index.reserved, served.account = account.withRoom room := by
  obtain ⟨capacity, hdemand, stop, hstop⟩ := h
  obtain ⟨hmemory, room, hroom, hpool⟩ := Pool.grow_of_error S hstop
  cases request with
  | acquire =>
      have hturn := Pool.acquire_of_failing S.recorded hdemand hstop
      simp only [serve, handOut, hturn]
      exact ⟨⟨stop, rfl⟩, hmemory, room, hroom, by rw [hpool]; rfl⟩
  | insert value =>
      -- the value comes to its end, which is no matter of the pool
      have hturn := Pool.acquire_of_failing S.recorded hdemand hstop
      simp only [serve, handOut, Pool.insert, hturn]
      exact ⟨⟨_, rfl⟩, hmemory, room, hroom, by rw [hpool]; rfl⟩
  | grow count =>
      obtain rfl : count = capacity := Option.some.inj hdemand
      simp only [serve, hstop]
      exact ⟨⟨stop, rfl⟩, hmemory, room, hroom, by rw [hpool]; rfl⟩
  | release | remove | check | destroy | read | write | scribble => cases hdemand

/-- A request that may ask for storage is answered with an error exactly if growth fails for it. -/
theorem error_iff_failsToGrow (S : Supply α σ) {world : World (Recorded α σ)}
    (hasks : request.takes = true ∨ ∃ capacity, request = .grow capacity)
    (hcount : account.pool.acquired < Word.max) :
    (∃ stop, (account.serve S.recorded world request).result = .error stop) ↔
      account.FailsToGrow S.recorded world request := by
  refine ⟨?_, fun h => (serve_of_failsToGrow S h).1⟩
  rintro ⟨stop, hstop⟩
  have hacquisition : ∀ (value : Option T.Value) (turn : Turn T α (Recorded α σ) Nat),
      account.pool.Acquisition S world turn →
      (account.handOut value turn).result = .error stop →
      account.FailsToGrow S.recorded world .acquire := by
    intro value turn hturn herror
    cases hturn with
    | reused item _ hresult _ _ =>
        simp only [handOut, hresult] at herror
        cases herror
    | grown slab _ _ hresult _ _ _ =>
        simp only [handOut, hresult] at herror
        cases herror
    | refused reason other hhead hgrowth _ _ _ =>
        exact ⟨account.pool.nextGrowth, by simp [Pool.demand?, FreeList.isEmpty, hhead], reason,
          hgrowth⟩
  cases request with
  | acquire => exact hacquisition _ _ (Pool.acquire_acquisition S world hcount) hstop
  | insert value => exact hacquisition _ _ (Pool.insert_acquisition S value world hcount) hstop
  | grow capacity =>
      refine ⟨capacity, rfl, ?_⟩
      simp only [serve] at hstop
      cases hresult : (account.pool.grow S.recorded capacity world).result with
      | error reason => exact ⟨reason, rfl⟩
      | ok _ =>
          rw [hresult] at hstop
          cases hstop
  | release | remove | check | destroy | read | write | scribble => simp [Request.takes] at hasks

end Account

end SlabPool
