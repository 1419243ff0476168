import Mathlib.Data.List.Perm.Subperm
import SlabPool.Proofs.Account.Custody
import SlabPool.Proofs.Demand

/-!
Acquisitions that cannot be counted.

The count of acquisitions ends where the words end. A pool that is asked for a slot when its count
is at its end takes the slot off the free list all the same, and raises a fault after that: nobody
holds the slot then, and no link leads to it any more. The pool goes on, and clients keep their
contract as before: `Account.Permits` says nothing about the count.

Such an account is not sound, since slots are missing from it. But there is a larger account that is
sound, in which somebody holds those slots too, and all that matters about the pool can be said of
that one: `Account.Covered`. Every request that clients may make keeps an account covered, and
leaves alone what it is not about (`Account.Covered.serve`).
-/

namespace SlabPool

variable {T : ItemType} {α σ : Type}

/-! ### Pools at the end of their count -/

/-- No slab has as many slots as there are words. -/
theorem Slab.Fits.capacity_lt {slab : Slab T} (h : slab.Fits) : slab.capacity.val < Word.max := by
  have height : 8 * slab.capacity.val ≤ slab.bytes := Nat.mul_le_mul_right _ T.eight_le_size
  have hmax : slab.bytes ≤ Layout.maxSize T.align := h
  unfold Layout.maxSize at hmax
  unfold Word.max
  omega

theorem Pool.take_of_spent {pool : Pool T α} {item : Nat} (h : pool.free.head = some item)
    (hcount : Word.max ≤ pool.acquired) (memory : Memory) :
    pool.take memory =
      (.error (.fault .countExhausted), { pool with free := ⟨memory.link item⟩ }) := by
  have hadd : Word.checkedAdd pool.acquired 1 = none := by
    rw [Word.checkedAdd_eq_none_iff]
    unfold Word.max at hcount
    unfold Word.modulus
    omega
  simp only [Pool.take, FreeList.pop?, h, Option.map_some, hadd]

theorem Pool.acquire_of_spent (S : Supply α σ) {pool : Pool T α} {item : Nat}
    (h : pool.free.head = some item) (hcount : Word.max ≤ pool.acquired) (world : World σ) :
    pool.acquire S world =
      { result := .error (.fault .countExhausted)
        world
        pool := { pool with free := ⟨world.memory.link item⟩ } } := by
  have hempty : pool.free.isEmpty = false := by
    rw [FreeList.isEmpty, h]
    rfl
  rw [Pool.acquire, hempty, Pool.take_of_spent h hcount]
  rfl

/-- A pool at the end of its count does not grow for want of a slot, because no slab is so large. -/
theorem Pool.error_of_spent (S : Supply α σ) {pool : Pool T α} (hcount : Word.max ≤ pool.acquired)
    (world : World (Recorded α σ)) :
    ∃ stop, (pool.grow S.recorded pool.nextGrowth world).result = .error stop := by
  cases pool.grow_growth S pool.nextGrowth world with
  | failed stop reserved hresult _ _ _ => exact ⟨stop, hresult⟩
  | added slab reserved free calls _ hcapacity hfits _ _ _ _ =>
      have hlt := hfits.capacity_lt
      have hge : Word.max ≤ pool.nextGrowth.val := hcount.trans (Nat.le_max_right _ _)
      rw [hcapacity] at hlt
      omega

theorem Pool.insert_of_error (S : Supply α σ) {pool : Pool T α} {value : T.Value} {world : World σ}
    {stop : Stop} (h : (pool.acquire S world).result = .error stop) :
    pool.insert S value world =
      { pool.acquire S world with
        result := .error (stop.afterDiscard (T.finalise value.val))
        destroyed := (pool.acquire S world).destroyed ++ [value.val] } := by
  simp only [Pool.insert, h]

namespace Account

/-! ### Larger accounts -/

/-- The other account is of the same pool, and in its books there are all items of this one. -/
structure Within (account larger : Account T α) : Prop where
  pool_eq : larger.pool = account.pool
  held : account.held.Subperm larger.held
  contents : ∀ item ∈ account.held, larger.contents item = account.contents item

theorem Within.refl (account : Account T α) : account.Within account :=
  ⟨rfl, List.Subperm.refl _, fun _ _ => rfl⟩

theorem Within.trans {account larger largest : Account T α} (h : account.Within larger)
    (h' : larger.Within largest) : account.Within largest where
  pool_eq := h'.pool_eq.trans h.pool_eq
  held := h.held.trans h'.held
  contents item hitem :=
    (h'.contents item (h.held.subset hitem)).trans (h.contents item hitem)

theorem Within.withPool {account larger : Account T α} (h : account.Within larger)
    (pool : Pool T α) : Account.Within { account with pool } { larger with pool } :=
  ⟨rfl, h.held, h.contents⟩

/-- A slot that is lost counts as held from then on. -/
theorem Within.lose {account : Account T α} {memory : Memory} {item : Nat} {free : List Nat}
    (h : account.Sound memory (item :: free)) (hspread : account.pool.index.Spread)
    (pool : Pool T α) :
    Account.Within { account with pool }
      { pool
        held := item :: account.held
        contents := Function.update account.contents item none } := by
  refine ⟨rfl, (List.sublist_cons_self item account.held).subperm, ?_⟩
  intro other hother
  have hne := (h.free_apart_held hspread List.mem_cons_self hother).ne.symm
  exact Function.update_of_ne hne _ _

theorem Within.permits {account larger : Account T α} (h : account.Within larger)
    {request : Request T Nat} (hpermits : account.Permits request) : larger.Permits request := by
  cases request with
  | release item | remove item | read item | write item => exact h.held.subset hpermits
  | scribble item offset words => exact ⟨h.held.subset hpermits.1, hpermits.2⟩
  | acquire | insert | grow | check | destroy => trivial

/-- What a pool answers does not depend on the books. -/
theorem serve_congr (S : Supply α σ) {account other : Account T α} (h : other.pool = account.pool)
    (world : World σ) (request : Request T Nat) :
    (other.serve S world request).toReply = (account.serve S world request).toReply ∧
      (other.serve S world request).account.pool =
        (account.serve S world request).account.pool := by
  cases request with
  | acquire | insert | release | remove =>
      constructor
      · simp only [serve, handOut, takeBack, h]
      · simp only [serve, handOut_pool, takeBack_pool, h]
  | grow capacity => simp only [serve, h, and_self]
  | check =>
      simp only [serve, h]
      split
      · exact ⟨rfl, h⟩
      · exact ⟨rfl, h⟩
  | destroy => simp only [serve, h, and_self]
  | read | write | scribble => exact ⟨rfl, h⟩

/-- Where two books agree, they agree after the same was entered into both. -/
theorem update_congr {contents contents' : Nat → Option T.Value} {item other : Nat}
    (content : Option T.Value) (h : other ≠ item → contents' other = contents other) :
    Function.update contents' item content other = Function.update contents item content other := by
  by_cases heq : other = item
  · rw [heq, Function.update_self, Function.update_self]
  · rw [Function.update_of_ne heq, Function.update_of_ne heq, h heq]

theorem Within.handOut {account larger : Account T α} (h : account.Within larger)
    (value : Option T.Value) (turn : Turn T α σ Nat) :
    (account.handOut value turn).account.Within (larger.handOut value turn).account := by
  simp only [Account.handOut]
  cases turn.result with
  | error stop => exact ⟨rfl, h.held, h.contents⟩
  | ok item =>
      refine ⟨rfl, (List.subperm_cons item).mpr h.held, ?_⟩
      intro other hother
      apply update_congr
      exact fun hne => h.contents other ((List.mem_cons.mp hother).resolve_left hne)

theorem Within.takeBack {account larger : Account T α} (h : account.Within larger) (item : Nat)
    (turn : Turn T α σ Unit) :
    (account.takeBack item turn).account.Within (larger.takeBack item turn).account := by
  simp only [Account.takeBack]
  cases turn.result with
  | ok done =>
      exact ⟨rfl, h.held.erase item,
        fun other hother => h.contents other (List.mem_of_mem_erase hother)⟩
  | error stop =>
      exact ⟨rfl, h.held, fun other hother => update_congr none fun _ => h.contents other hother⟩

theorem Within.enter {account larger : Account T α} (h : account.Within larger) (item : Nat)
    (content : Option T.Value) :
    Account.Within { account with contents := Function.update account.contents item content }
      { larger with contents := Function.update larger.contents item content } :=
  ⟨h.pool_eq, h.held, fun other hother => update_congr content fun _ => h.contents other hother⟩

/-- The books of both are kept alike, as long as clients write into what is in both. -/
theorem Within.serve (S : Supply α σ) {account larger : Account T α} (h : account.Within larger)
    (world : World σ) {request : Request T Nat}
    (hoverwrites : ∀ item, request.Overwrites item → item ∈ account.held) :
    (account.serve S world request).account.Within (larger.serve S world request).account := by
  cases request with
  | acquire =>
      simp only [Account.serve, h.pool_eq]
      exact h.handOut none _
  | insert value =>
      simp only [Account.serve, h.pool_eq]
      exact h.handOut (some value) _
  | release item =>
      simp only [Account.serve, h.pool_eq]
      exact h.takeBack item _
  | remove item =>
      simp only [Account.serve, h.pool_eq]
      exact h.takeBack item _
  | grow capacity =>
      simp only [Account.serve, h.pool_eq]
      exact ⟨rfl, h.held, h.contents⟩
  | check =>
      simp only [Account.serve, h.pool_eq]
      split
      · exact h
      · exact h
  | destroy =>
      simp only [Account.serve, h.pool_eq]
      exact .refl _
  | read item => exact h
  | write item value => exact h.enter item (some value)
  | scribble item offset words =>
      simp only [Account.serve, h.contents item (hoverwrites item rfl)]
      exact h.enter item _

/-! ### Covered accounts -/

/-- The account is within one that is sound, and in which there are no more items than there were
acquisitions. -/
def Covered (account : Account T α) (memory : Memory) : Prop :=
  ∃ larger free, account.Within larger ∧ larger.Sound memory free ∧
    larger.held.length ≤ larger.pool.acquired

/-- A request left an account covered, and left alone whatever it was not about. -/
structure CoveredAfter (account : Account T α) (request : Request T Nat) (before : Memory)
    (after : Account T α) (memory : Memory) : Prop
    extends Untouched account request before after memory where
  covered : after.Covered memory

/-- What a request leaves alone of the items in a larger account, it leaves alone of those in the
account itself. -/
theorem Within.untouched {account larger after larger' : Account T α} {request : Request T Nat}
    {before memory : Memory} (hwithin : account.Within larger) (hwithin' : after.Within larger')
    (hheld : ∀ item ∈ account.held, ¬ request.Ends item → item ∈ after.held)
    (h : larger.Untouched request before larger' memory) :
    account.Untouched request before after memory where
  writes := by
    obtain ⟨written, hsubset, hwrites, hspared⟩ := h.writes
    rw [hwithin'.pool_eq] at hsubset
    exact ⟨written, hsubset, hwrites, fun item hitem => hspared item (hwithin.held.subset hitem)⟩
  held := hheld
  contents := by
    intro item hitem hends hoverwrites
    rw [← hwithin'.contents item (hheld item hitem hends), ← hwithin.contents item hitem]
    exact h.contents item (hwithin.held.subset hitem) hends hoverwrites

theorem Covered.congr {account : Account T α} {memory after : Memory} (h : account.Covered memory)
    (hkeeps : ∀ item ∈ account.pool.index.slots, T.Keeps item memory after) :
    account.Covered after := by
  obtain ⟨larger, free, hwithin, hsound, hheld⟩ := h
  rw [← hwithin.pool_eq] at hkeeps
  exact ⟨larger, free, hwithin, hsound.congr hkeeps, hheld⟩

theorem Covered.mem_slots {account : Account T α} {memory : Memory} (h : account.Covered memory)
    {item : Nat} (hitem : item ∈ account.held) : item ∈ account.pool.index.slots := by
  obtain ⟨larger, free, hwithin, hsound, -⟩ := h
  rw [← hwithin.pool_eq]
  exact hsound.mem_slots_of_held (hwithin.held.subset hitem)

/-- An item in use holds what was last put into it. -/
theorem Covered.load_eq {account : Account T α} {memory : Memory} (h : account.Covered memory)
    {item : Nat} (hitem : item ∈ account.held) {value : T.Value}
    (hvalue : account.contents item = some value) : T.load memory item = value := by
  obtain ⟨larger, free, hwithin, hsound, -⟩ := h
  rw [← hwithin.contents item hitem] at hvalue
  exact hsound.values item (hwithin.held.subset hitem) value hvalue

/-- No two items in use share a byte. -/
theorem Covered.held_apart {account : Account T α} {memory : Memory} (h : account.Covered memory)
    (hspread : account.pool.index.Spread) : account.held.Pairwise T.Apart := by
  obtain ⟨larger, free, hwithin, hsound, -⟩ := h
  rw [← hwithin.pool_eq] at hspread
  obtain ⟨held, hperm, hsublist⟩ := hwithin.held
  have hapart : larger.held.Pairwise T.Apart :=
    (List.pairwise_append.mp (hsound.apart hspread)).2.1
  exact (hperm.pairwise_iff fun h => Or.symm h).mp (hapart.sublist hsublist)

theorem Covered.check_eq_ok {account : Account T α} {memory : Memory} (h : account.Covered memory)
    (hspread : account.pool.index.Spread) : account.pool.check memory = .ok () := by
  obtain ⟨larger, free, hwithin, hsound, -⟩ := h
  rw [← hwithin.pool_eq] at hspread ⊢
  exact hsound.check_eq_ok hspread

/-- There are fewer slots than words, so nobody can hold more of them than can be counted. -/
theorem Sound.held_le_of_spent {account : Account T α} {memory : Memory} {free : List Nat}
    (h : account.Sound memory free) (hspread : account.pool.index.Spread)
    (hcount : Word.max ≤ account.pool.acquired) : account.held.length ≤ account.pool.acquired := by
  have hlength := h.perm.length_eq
  have hlt := hspread.length_slots_lt
  rw [List.length_append] at hlength
  unfold Word.max at hcount
  unfold Word.modulus at hlt
  omega

/-- An acquisition that was answered with an error changes nothing in the books. -/
theorem serve_of_acquire_error (S : Supply α σ) (account : Account T α) {world : World σ}
    {request : Request T Nat} (htakes : request.takes = true) {stop : Stop}
    (h : (account.pool.acquire S world).result = .error stop) :
    (account.serve S world request).account =
        { account with pool := (account.pool.acquire S world).pool } ∧
      (account.serve S world request).world = (account.pool.acquire S world).world := by
  cases request with
  | acquire => simp only [serve, handOut, h, and_self]
  | insert value => simp only [serve, handOut, Pool.insert_of_error S h, and_self]
  | release | remove | grow | check | destroy | read | write | scribble => cases htakes

/-- A slot is asked for when it cannot be counted any more. -/
theorem Sound.covered_of_spent (S : Supply α σ) {account larger : Account T α}
    {world : World (Recorded α σ)} {free : List Nat} {request : Request T Nat}
    (htakes : request.takes = true) (hwithin : account.Within larger)
    (h : larger.Sound world.memory free) (hspread : larger.pool.index.Spread)
    (hcount : Word.max ≤ larger.pool.acquired) :
    let served := account.serve S.recorded world request
    account.CoveredAfter request world.memory served.account served.world.memory := by
  intro served
  have hpool := hwithin.pool_eq
  cases free with
  | cons item free =>
      have hturn := Pool.acquire_of_spent S.recorded h.holds.1 hcount world
      rw [hpool] at hturn
      obtain ⟨haccount, hworld⟩ :=
        serve_of_acquire_error S.recorded account htakes (congrArg (·.result) hturn)
      have hsound := h.take { larger.pool with free := ⟨world.memory.link item⟩ } rfl rfl
      simp only [served, haccount, hworld, hturn]
      refine ⟨.of_still account _ request _, _, free, ?_, hsound,
        hsound.held_le_of_spent hspread hcount⟩
      rw [← hpool]
      exact (hwithin.withPool _).trans (.lose h hspread _)
  | nil =>
      obtain ⟨stop, hstop⟩ := Pool.error_of_spent S hcount world
      have hturn := Pool.acquire_of_failed S.recorded h.holds hstop
      have hgrowth := larger.pool.grow_growth S larger.pool.nextGrowth world
      rw [hpool] at hstop hturn hgrowth
      obtain ⟨haccount, hworld⟩ :=
        serve_of_acquire_error S.recorded account htakes (congrArg (·.result) hturn)
      cases hgrowth with
      | added _ _ _ _ hresult _ _ _ _ _ _ =>
          rw [hresult] at hstop
          cases hstop
      | failed _ reserved _ hgrown hmemory _ =>
          simp only [served, haccount, hworld, hturn, hgrown, hmemory]
          refine ⟨.of_still account _ request _, ?_⟩
          rw [← hpool]
          exact ⟨{ larger with pool.index.reserved := reserved }, [],
            ⟨rfl, hwithin.held, hwithin.contents⟩, ⟨h.holds, h.perm, h.values⟩,
            h.held_le_of_spent hspread hcount⟩

theorem Covered.serve (S : Supply α σ) {account : Account T α} {world : World (Recorded α σ)}
    {request : Request T Nat} (h : account.Covered world.memory)
    (hpermits : account.Permits request)
    (hspread : account.pool.index.Spread)
    (hspread' : (account.serve S.recorded world request).account.pool.index.Spread) :
    let served := account.serve S.recorded world request
    account.CoveredAfter request world.memory served.account served.world.memory := by
  intro served
  obtain ⟨larger, free, hwithin, hsound, hheld⟩ := h
  by_cases hspent : request.takes = true ∧ Word.max ≤ larger.pool.acquired
  · exact hsound.covered_of_spent S hspent.1 hwithin (hwithin.pool_eq ▸ hspread) hspent.2
  · -- the larger account is served as any other
    have hcounted : larger.PermitsCounted request := by
      refine ⟨hwithin.permits hpermits, fun htakes => ?_⟩
      exact Nat.not_le.mp fun hcount => hspent ⟨htakes, hcount⟩
    obtain ⟨hreply, hpool⟩ := serve_congr S.recorded hwithin.pool_eq world request
    have hworld := congrArg (·.world) hreply
    rw [← hpool] at hspread'
    have hkept := hsound.serve S request hcounted (hwithin.pool_eq ▸ hspread) hspread'
    dsimp only at hkept
    rw [hworld] at hkept
    obtain ⟨free', hsound'⟩ := hkept.sound
    have hwithin' := hwithin.serve S.recorded world hpermits.held_of_overwrites
    refine ⟨hwithin.untouched hwithin' ?_ hkept.toUntouched, _, free', hwithin', hsound', ?_⟩
    · exact fun item hitem hends => held_serve S.recorded world hitem hends
    · exact (serve_counted S hsound.holds hcounted).held_le hheld

end Account

/-- A new pool is covered, and only its own slots were written into. -/
theorem Blueprint.Built.covered {plan : Blueprint α} {world : World (Recorded α σ)}
    {reply : Reply (Recorded α σ) (Pool T α)} (h : plan.Built world reply) {pool : Pool T α}
    (hresult : reply.result = .ok pool) (hspread : pool.index.Spread) :
    Account.Covered { pool } reply.world.memory ∧
      T.WritesOnly pool.index.slots world.memory reply.world.memory := by
  obtain ⟨⟨free, hsound⟩, hwrites⟩ := h.sound hresult hspread
  exact ⟨⟨_, free, .refl _, hsound, Nat.zero_le _⟩, hwrites⟩

end SlabPool
