import SlabPool.Host.Collaborator
import SlabPool.Proofs.Doubling
import SlabPool.Proofs.Room
import SlabPool.Session.Kind

/-!
How far the room for slabs runs ahead.

Room in the list of slabs is made before there is a slab, and it stays if there is none in the end.
So there can be more room than the slabs call for. It is never more by more than one doubling,
whatever attempts to grow fail and at whichever step, because no more is asked for until all of it
is taken (`SlabIndex.Snug`). In a row of attempts that all come to nothing after room was made, one
at most asks the heap for room (`Estate.FruitlessAll`).

When there is a block at last, its slots are put on the free list before the slab is listed, and no
failure may come in between. None can: the list has room, so that it is lengthened without a word to
the heap (`SlabIndex.push_of_room`).

Only an end of all slabs that is broken off leaves room without slabs, which is why no fault may be
raised when blocks are handed back.

Main statement: `Estate.room_within_one_doubling`.
-/

namespace SlabPool

variable {ι α σ : Type}

section

variable {T : ItemType}

/-! ### Room that is just enough -/

namespace SlabIndex

variable {index : SlabIndex T}

/-- Puts a slab at the end of the list. The heap is asked for room where there is none. -/
def push (S : Supply α σ) (index : SlabIndex T) (slab : Slab T) (supply : σ) :
    Option (SlabIndex T) × σ :=
  let (room, supply) := index.reserve S supply
  (room.map (·.append slab), supply)

theorem push_of_room (S : Supply α σ) (h : index.slabs.length < index.reserved) (slab : Slab T)
    (supply : σ) : index.push S slab supply = (some (index.append slab), supply) := by
  rw [push, reserve, if_pos h]
  rfl

theorem roomy_of_room (h : index.slabs.length < index.reserved) : index.roomy = index :=
  if_pos h

theorem roomCalls_of_room (h : index.slabs.length < index.reserved) :
    (index.roomCalls : List (Call α)) = [] :=
  if_pos h

/-- The room is none, or it is what doubling made of the first four places, and it is not more than
is called for by the slabs of the list. -/
structure Snug (index : SlabIndex T) : Prop where
  reserved_le : index.reserved ≤ max 4 (2 * index.slabs.length)
  doubled : index.reserved = 0 ∨ ∃ j, index.reserved = 4 * 2 ^ j

namespace Snug

theorem empty : Snug ({} : SlabIndex T) :=
  ⟨Nat.zero_le _, .inl rfl⟩

theorem roomy (h : index.Snug) (hlength : index.slabs.length ≤ index.reserved) :
    index.roomy.Snug := by
  unfold SlabIndex.roomy
  split
  · exact h
  · have hfull : index.reserved = index.slabs.length := by omega
    refine ⟨?_, .inr ?_⟩
    · show max 4 (2 * index.reserved) ≤ _
      rw [hfull]
    · show ∃ j, max 4 (2 * index.reserved) = _
      rcases h.doubled with hnone | ⟨j, hpower⟩
      · exact ⟨0, by rw [hnone]; rfl⟩
      · refine ⟨j + 1, ?_⟩
        have hpos := Nat.two_pow_pos j
        rw [hpower, Nat.pow_succ]
        omega

theorem append (h : index.Snug) (slab : Slab T) : (index.append slab).Snug := by
  refine ⟨?_, h.doubled⟩
  have hle := h.reserved_le
  simp only [SlabIndex.append, List.length_append, List.length_singleton]
  omega

end Snug

/-- What lasts of a list with the calls made so far. -/
structure Provided (index : SlabIndex T) (calls : List (Call α)) : Prop where
  housed : index.Housed calls
  fits : ∀ slab ∈ index.slabs, slab.Fits
  snug : Quiet calls → index.Snug

theorem Provided.lasting : Lasting fun _ index (calls : List (Call α)) => index.Provided calls where
  empty T calls := ⟨Housed.lasting.empty T calls, nofun, fun _ => .empty⟩
  mono h hsuffix := by
    refine ⟨h.housed.mono hsuffix, h.fits, fun hquiet => h.snug ?_⟩
    obtain ⟨new, rfl⟩ := hsuffix
    exact hquiet.of_append
  roomy h := by
    refine ⟨h.housed.roomy, ?_, fun hquiet => (h.snug hquiet.of_append).roomy h.housed.length_le⟩
    rw [slabs_roomy]
    exact h.fits
  append h hslab := by
    refine ⟨h.housed.append_roomy _, ?_, fun hquiet =>
      ((h.snug hquiet.of_append).roomy h.housed.length_le).append _⟩
    intro other hother
    rw [SlabIndex.append, slabs_roomy] at hother
    rcases List.mem_append.mp hother with hother | hother
    · exact h.fits other hother
    · rw [List.mem_singleton.mp hother]
      exact hslab
  halted h hsuffix hloud :=
    ⟨Housed.lasting.halted h.housed hsuffix hloud, nofun,
      fun hquiet => absurd hquiet (hloud h.fits)⟩

end SlabIndex

/-! ### Attempts to grow -/

namespace Call

/-- The call asks the heap for room in a list. -/
def forRoom : Call α → Bool
  | reserve .. => true
  | allocate .. | release .. => false

end Call

theorem SlabIndex.filter_roomCalls (index : SlabIndex T) :
    (index.roomCalls : List (Call α)).filter Call.forRoom = index.roomCalls := by
  unfold roomCalls
  split
  · rfl
  · rfl

theorem SlabIndex.lent_roomCalls (index : SlabIndex T) :
    lent (index.roomCalls : List (Call α)) = [] := by
  unfold roomCalls
  split
  · rfl
  · rfl

namespace Pool

variable {S : Supply α σ} {pool : Pool T α} {capacity : Capacity} {world : World (Recorded α σ)}

/-- Where a block is lent, it is the last thing that is asked for, and there is a slab. -/
theorem grow_of_lent {new : List (Call α)} {loan : Loan α}
    (hnew : (pool.grow S.recorded capacity world).world.supply.calls = new ++ world.supply.calls)
    (hlent : loan ∈ lent new) :
    let growth := pool.grow S.recorded capacity world
    growth.result = .ok () ∧ ∃ slab : Slab T, slab.loan pool.allocator = loan ∧
      new = .allocate loan.allocator loan.layout (.ok loan.block) :: pool.index.roomCalls ∧
      growth.pool.index = pool.index.roomy.append slab := by
  intro growth
  by_cases hrefused : pool.index.Refused S world.supply.state
  · obtain ⟨-, -, hcalls, -⟩ := grow_of_refused capacity hrefused
    obtain rfl : new = [.reserve _ false] := List.append_cancel_right (hnew.symm.trans hcalls)
    cases hlent
  · by_cases hsize : T.size * capacity.val ≤ Layout.maxSize T.align
    · obtain ⟨answer, hcalls, -, hslab⟩ := grow_of_layout hrefused hsize
      obtain rfl : new = .allocate _ _ answer :: pool.index.roomCalls :=
        List.append_cancel_right (hnew.symm.trans hcalls)
      cases answer with
      | error stop =>
          change loan ∈ lent pool.index.roomCalls at hlent
          rw [pool.index.lent_roomCalls] at hlent
          cases hlent
      | ok block =>
          change loan ∈ _ :: lent pool.index.roomCalls at hlent
          rw [pool.index.lent_roomCalls] at hlent
          obtain rfl := List.mem_singleton.mp hlent
          obtain ⟨hdone, hindex, -⟩ := hslab block rfl
          exact ⟨hdone, ⟨block, capacity⟩, rfl, rfl, hindex⟩
    · obtain ⟨-, -, hcalls, -⟩ := grow_of_oversized hrefused (Nat.not_le.mp hsize)
      obtain rfl := List.append_cancel_right (hnew.symm.trans hcalls)
      rw [pool.index.lent_roomCalls] at hlent
      cases hlent

/-- Where room was made and there is no slab, the room stays. -/
theorem grow_of_fruitless (hrefused : ¬ pool.index.Refused S world.supply.state)
    (h : (pool.grow S.recorded capacity world).result ≠ .ok ()) :
    let growth := pool.grow S.recorded capacity world
    growth.pool.index = pool.index.roomy ∧
      ∃ new, growth.world.supply.calls = new ++ world.supply.calls ∧
        new.filter Call.forRoom = pool.index.roomCalls := by
  intro growth
  by_cases hsize : T.size * capacity.val ≤ Layout.maxSize T.align
  · obtain ⟨answer, hcalls, hfailed, hlent⟩ := grow_of_layout hrefused hsize
    cases answer with
    | ok block => exact absurd (hlent block rfl).1 h
    | error stop =>
        refine ⟨congrArg Pool.index (hfailed stop rfl).2.1, _ :: pool.index.roomCalls, hcalls, ?_⟩
        rw [List.filter_cons_of_neg (by simp [Call.forRoom])]
        exact pool.index.filter_roomCalls
  · obtain ⟨-, hpool, hcalls, -⟩ := grow_of_oversized hrefused (Nat.not_le.mp hsize)
    exact ⟨congrArg Pool.index hpool, pool.index.roomCalls, hcalls, pool.index.filter_roomCalls⟩

end Pool

end

/-! ### Attempts in a run -/

variable {T : ι → ItemType}

namespace Estate

variable {estate : Estate T α σ} {action : Action T α} {i : ι}

/-- The action makes the pool `i` grow, or is meant to. -/
def Attempts (i : ι) (estate : Estate T α σ) (action : Action T α) : Prop :=
  ∃ pool capacity, estate.demand? action = some ⟨i, pool, capacity⟩

theorem Demanded.pool_eq {pool : Pool (T i) α} {capacity : Capacity}
    (h : estate.Demanded action i pool capacity) {account : Account (T i) α}
    (hfound : estate.accounts i = some account) : account.pool = pool ∧ action.About i := by
  cases h with
  | built plan hmissing _ => cases hmissing.symm.trans hfound
  | served own request hown _ =>
      cases hown.symm.trans hfound
      exact ⟨rfl, rfl⟩

theorem Housed.of_demanded (h : estate.Housed) {pool : Pool (T i) α} {capacity : Capacity}
    (hdemanded : estate.Demanded action i pool capacity) : pool.index.Housed estate.calls := by
  cases hdemanded with
  | built plan _ _ => exact SlabIndex.Housed.lasting.empty _ _
  | served own request hown _ => exact h i own hown

variable [DecidableEq ι]

/-- If the action makes the pool `i` grow, that comes to nothing, but not for want of room in the
list; and the action does not end the slabs of the pool. -/
def Fruitless (S : Supply α σ) (i : ι) (estate : Estate T α σ) (action : Action T α) : Prop :=
  ¬ action.Clears i ∧ ∀ demand ∈ estate.demand? action, demand.1 = i →
    ¬ demand.2.1.index.Refused S estate.world.supply.state ∧
      (demand.2.1.grow S.recorded demand.2.2 estate.world).result.toOption = none

instance (S : Supply α σ) (i : ι) (estate : Estate T α σ) (action : Action T α) :
    Decidable (estate.Fruitless S i action) :=
  inferInstanceAs (Decidable (_ ∧ ∀ _ ∈ _, _ → _))

def FruitlessAll (S : Supply α σ) (i : ι) : Estate T α σ → List (Action T α) → Prop
  | _, [] => True
  | estate, action :: actions =>
    estate.Fruitless S i action ∧ (estate.step S action).FruitlessAll S i actions

instance decidableFruitlessAll (S : Supply α σ) (i : ι) :
    (estate : Estate T α σ) → (actions : List (Action T α)) →
      Decidable (estate.FruitlessAll S i actions)
  | _, [] => isTrue trivial
  | estate, action :: actions =>
    have := decidableFruitlessAll S i (estate.step S action) actions
    inferInstanceAs (Decidable (_ ∧ _))

/-- What the action asks the heap for on behalf of the list of the pool `i`, the latest first. -/
def asked (S : Supply α σ) (i : ι) (estate : Estate T α σ) (action : Action T α) :
    List (Call α) :=
  let after := (estate.step S action).calls
  if action.About i then (after.take (after.length - estate.calls.length)).filter Call.forRoom
  else []

def askedAll (S : Supply α σ) (i : ι) : Estate T α σ → List (Action T α) → List (Call α)
  | _, [] => []
  | estate, action :: actions =>
    (estate.step S action).askedAll S i actions ++ estate.asked S i action

theorem asked_of_append (S : Supply α σ) (hpool : action.About i) {new : List (Call α)}
    (h : (estate.step S action).calls = new ++ estate.calls) :
    estate.asked S i action = new.filter Call.forRoom := by
  rw [asked, if_pos hpool, h, List.length_append, Nat.add_sub_cancel, List.take_left]

/-- The growth that an action makes is all it does to the list of its pool, and it calls nobody
else. -/
theorem Demanded.grown (S : Supply α σ) {pool : Pool (T i) α} {capacity : Capacity}
    (h : estate.Demanded action i pool capacity) :
    let growth := pool.grow S.recorded capacity estate.world
    let after := estate.step S action
    after.calls = growth.world.supply.calls ∧
      ((estate.accounts i).isSome ∨ growth.result = .ok () →
        ∃ own, after.accounts i = some own ∧ own.pool.index = growth.pool.index) := by
  cases h with
  | built plan hmissing hinitial =>
      simp only [step, hmissing, calls_put, accounts_put_self, Blueprint.build, hinitial]
      refine ⟨trivial, ?_⟩
      rintro (hsome | hok)
      · cases hsome
      · rw [hok]
        exact ⟨_, rfl, rfl⟩
  | served own request hown hcount =>
      have hserved := own.serve_of_demand S.recorded estate.world hcount
      simp only [step, hown, calls_put, accounts_put_self]
      exact ⟨congrArg (·.calls) hserved.supply_eq, fun _ => ⟨_, rfl, hserved.index_eq⟩⟩

/-- An action that neither makes the pool grow nor ends its slabs leaves the list as it is, and asks
for no room in it. -/
theorem still_of_no_attempt (S : Supply α σ) {account : Account (T i) α}
    (hfound : estate.accounts i = some account) (hclears : ¬ action.Clears i)
    (h : ¬ estate.Attempts i action) :
    (∃ own, (estate.step S action).accounts i = some own ∧
      own.pool.index = account.pool.index) ∧ estate.asked S i action = [] := by
  by_cases hpool : action.About i
  · cases action with
    | build j plan =>
        obtain rfl : j = i := hpool
        have hstep : estate.step S (.build j plan) = estate := by simp only [step, hfound]
        have hcalls : (estate.step S (.build j plan)).calls = [] ++ estate.calls :=
          congrArg calls hstep
        have habout : (Action.build j plan : Action T α).About j := rfl
        rw [hstep]
        exact ⟨⟨account, hfound, rfl⟩, asked_of_append S habout hcalls⟩
    | use j request =>
        obtain rfl : j = i := hpool
        have hdemand : account.pool.demand? request = none := by
          by_contra hsome
          obtain ⟨capacity, hcapacity⟩ := Option.ne_none_iff_exists'.mp hsome
          exact h ⟨account.pool, capacity, by simp only [demand?, hfound, hcapacity]; rfl⟩
        have hdestroy : request ≠ .destroy := fun heq => hclears ⟨rfl, heq⟩
        have hsupply := account.supply_of_no_demand S.recorded estate.world hdemand hdestroy
        have hcalls : (estate.step S (.use j request)).calls = [] ++ estate.calls := by
          simp only [step, hfound, calls_put, hsupply]
          rfl
        have habout : (Action.use j request : Action T α).About j := rfl
        refine ⟨?_, asked_of_append S habout hcalls⟩
        simp only [step, hfound, accounts_put_self]
        exact ⟨_, rfl, (account.serve_of_no_demand S.recorded estate.world hdemand hdestroy).2⟩
    | drop j => exact absurd hpool hclears
    | elsewhere => exact hpool.elim
  · rw [accounts_step_of_ne S estate hpool, asked, if_neg hpool]
    exact ⟨⟨account, hfound, rfl⟩, rfl⟩

/-- What a fruitless attempt leaves is the room that it made. -/
theorem Fruitless.roomy {S : Supply α σ} {account : Account (T i) α}
    (h : estate.Fruitless S i action) (hfound : estate.accounts i = some account)
    (hattempts : estate.Attempts i action) :
    (∃ own, (estate.step S action).accounts i = some own ∧
      own.pool.index = account.pool.index.roomy) ∧
      estate.asked S i action = account.pool.index.roomCalls := by
  obtain ⟨pool, capacity, hdemand⟩ := hattempts
  have hdemanded := demanded_of_demand? hdemand
  obtain ⟨rfl, hpool⟩ := hdemanded.pool_eq hfound
  obtain ⟨hrefused, hresult⟩ := h.2 _ hdemand rfl
  have hnotok : (account.pool.grow S.recorded capacity estate.world).result ≠ .ok () := by
    intro hok
    rw [hok] at hresult
    cases hresult
  obtain ⟨hindex, new, hnew, hroom⟩ := Pool.grow_of_fruitless hrefused hnotok
  obtain ⟨hcalls, hown⟩ := hdemanded.grown S
  obtain ⟨own, hafter, hsame⟩ := hown (.inl (by rw [hfound]; rfl))
  exact ⟨⟨own, hafter, hsame.trans hindex⟩,
    (asked_of_append S hpool (hcalls.trans hnew)).trans hroom⟩

theorem Fruitless.kept {S : Supply α σ} {account : Account (T i) α}
    (h : estate.Fruitless S i action) (hfound : estate.accounts i = some account) :
    ∃ own, (estate.step S action).accounts i = some own := by
  by_cases hattempts : estate.Attempts i action
  · obtain ⟨⟨own, hown, -⟩, -⟩ := h.roomy hfound hattempts
    exact ⟨own, hown⟩
  · obtain ⟨⟨own, hown, -⟩, -⟩ := still_of_no_attempt S hfound h.1 hattempts
    exact ⟨own, hown⟩

/-! ### Runs without fruit -/

/-- While there is room, nothing is asked for. -/
theorem FruitlessAll.asked_of_room {S : Supply α σ} {account : Account (T i) α}
    {actions : List (Action T α)} (h : estate.FruitlessAll S i actions)
    (hfound : estate.accounts i = some account)
    (hroom : account.pool.index.slabs.length < account.pool.index.reserved) :
    estate.askedAll S i actions = [] := by
  induction actions generalizing estate account with
  | nil => rfl
  | cons action actions ih =>
      have hstill : (∃ own, (estate.step S action).accounts i = some own ∧
          own.pool.index = account.pool.index) ∧ estate.asked S i action = [] := by
        by_cases hattempts : estate.Attempts i action
        · have hroomy := h.1.roomy hfound hattempts
          rwa [SlabIndex.roomy_of_room hroom, SlabIndex.roomCalls_of_room hroom] at hroomy
        · exact still_of_no_attempt S hfound h.1.1 hattempts
      obtain ⟨⟨own, hafter, hindex⟩, hasked⟩ := hstill
      rw [askedAll, hasked, ih h.2 hafter (hindex ▸ hroom)]
      rfl

/-- After the first attempt there is room. -/
theorem Fruitless.asked_later {S : Supply α σ} {account : Account (T i) α}
    (h : estate.Fruitless S i action) (hhoused : estate.Housed)
    (hfound : estate.accounts i = some account) (hattempts : estate.Attempts i action)
    {later : List (Action T α)} (hlater : (estate.step S action).FruitlessAll S i later) :
    (estate.step S action).askedAll S i later = [] := by
  obtain ⟨⟨own, hafter, hindex⟩, -⟩ := h.roomy hfound hattempts
  refine hlater.asked_of_room hafter ?_
  rw [hindex, SlabIndex.slabs_roomy]
  exact (hhoused i account hfound).length_lt_roomy

/-- At most one request for room is made, and it is granted. -/
theorem FruitlessAll.asked_once {S : Supply α σ} {account : Account (T i) α}
    {actions : List (Action T α)} (h : estate.FruitlessAll S i actions) (hhoused : estate.Housed)
    (hfound : estate.accounts i = some account) :
    estate.askedAll S i actions = [] ∨ estate.askedAll S i actions =
      [.reserve (SlabIndex.entrySize * account.pool.index.nextReserved) true] := by
  induction actions generalizing estate account with
  | nil => exact .inl rfl
  | cons action actions ih =>
      by_cases hattempts : estate.Attempts i action
      · rw [askedAll, h.1.asked_later hhoused hfound hattempts h.2,
          (h.1.roomy hfound hattempts).2]
        unfold SlabIndex.roomCalls
        split
        · exact .inl rfl
        · exact .inr rfl
      · obtain ⟨⟨own, hafter, hindex⟩, hasked⟩ :=
          still_of_no_attempt S hfound h.1.1 hattempts
        rw [askedAll, hasked, List.append_nil, ← hindex]
        exact ih h.2 (hhoused.run S [action]) hafter

theorem FruitlessAll.asked_later {S : Supply α σ} {account : Account (T i) α}
    {earlier later : List (Action T α)}
    (h : estate.FruitlessAll S i (earlier ++ action :: later)) (hhoused : estate.Housed)
    (hfound : estate.accounts i = some account)
    (hattempts : (estate.run S earlier).Attempts i action) :
    ((estate.run S earlier).step S action).askedAll S i later = [] := by
  induction earlier generalizing estate account with
  | nil => exact h.1.asked_later hhoused hfound hattempts h.2
  | cons first earlier ih =>
      obtain ⟨own, hown⟩ := h.1.kept hfound
      exact ih h.2 (hhoused.run S [first]) hown hattempts

/-- At any point of a run in which no allocator raises a fault when a block is handed back:

* a list of slabs has room for its slabs and for twice as many at most, or for four, and its room is
  four times a power of two, or nothing;
* when a block is lent to a pool that grows, room for its slab was made before that, and the slab is
  listed without another call;
* in a row of attempts that come to nothing, the heap grants room at most once: after the first
  attempt for which there is room, none of the later ones asks for any. -/
theorem room_within_one_doubling (S : Supply α σ) (memory : Memory) (state : σ)
    (actions : List (Action T α)) (hquiet : Quiet ((start memory state).run S actions).calls) :
    let before := (start memory state).run S actions
    (∀ i account, before.accounts i = some account →
      let reserved := account.pool.index.reserved
      account.pool.numSlabs ≤ reserved ∧ reserved ≤ max 4 (2 * account.pool.numSlabs) ∧
        (reserved = 0 ∨ ∃ j, reserved = 4 * 2 ^ j)) ∧
    (∀ action i pool capacity, before.demand? action = some ⟨i, pool, capacity⟩ →
      let after := before.step S action
      ∀ new, after.calls = new ++ before.calls → ∀ loan ∈ lent new,
        ∃ slab own, slab.loan pool.allocator = loan ∧ after.accounts i = some own ∧
          new = .allocate loan.allocator loan.layout (.ok loan.block) :: pool.index.roomCalls ∧
          ∀ supply, pool.index.roomy.push S slab supply = (some own.pool.index, supply)) ∧
    (∀ i account more, before.accounts i = some account → before.FruitlessAll S i more →
      (before.askedAll S i more = [] ∨ before.askedAll S i more =
        [.reserve (SlabIndex.entrySize * account.pool.index.nextReserved) true]) ∧
      ∀ earlier action later, more = earlier ++ action :: later →
        (before.run S earlier).Attempts i action →
        ((before.run S earlier).step S action).askedAll S i later = []) := by
  intro before
  have hlists := (Lists.start memory state).run SlabIndex.Provided.lasting S actions
  have hhoused : before.Housed := fun i account hfound => (hlists i account hfound).housed
  refine ⟨?_, ?_, ?_⟩
  · intro i account hfound reserved
    have hprovided := hlists i account hfound
    have hsnug := hprovided.snug hquiet
    exact ⟨hprovided.housed.length_le, hsnug.reserved_le, hsnug.doubled⟩
  · intro action i pool capacity hdemand after new hnew loan hlent
    have hdemanded := demanded_of_demand? hdemand
    obtain ⟨hcalls, hown⟩ := hdemanded.grown S
    obtain ⟨hok, slab, hloan, hasked, hindex⟩ := Pool.grow_of_lent (hcalls.symm.trans hnew) hlent
    obtain ⟨own, hafter, hgrown⟩ := hown (.inr hok)
    have hroom : pool.index.roomy.slabs.length < pool.index.roomy.reserved := by
      rw [SlabIndex.slabs_roomy]
      exact (hhoused.of_demanded hdemanded).length_lt_roomy
    refine ⟨slab, own, hloan, hafter, hasked, fun supply => ?_⟩
    rw [SlabIndex.push_of_room S hroom, hgrown, hindex]
  · intro i account more hfound hfruitless
    refine ⟨hfruitless.asked_once hhoused hfound, ?_⟩
    rintro earlier action later rfl hattempts
    exact hfruitless.asked_later hhoused hfound hattempts

/-- A pool of four slabs, in a list with room for no more. -/
def fourSlabs : List (Action (fun _ : Bool => Kind.pair.itemType) Collaborator) :=
  [.build true { allocator := {}, initial := some 1 }, .use true (.grow 1), .use true (.grow 1),
    .use true (.grow 1)]

/-- One slot more than the largest slab has. -/
def tooLarge : Action (fun _ : Bool => Kind.pair.itemType) Collaborator :=
  .use true (.grow ⟨2 ^ 59, Nat.two_pow_pos 59⟩)

/-- The first attempt at a slab that is too large makes room, and the second finds it made. A fifth
slab, with a block at 4160, is listed without a word to the heap. -/
theorem room_of_fourSlabs :
    let before := (start {} {}).run Host.supply fourSlabs
    before.askedAll Host.supply true [tooLarge, .use true .acquire, tooLarge] =
        [.reserve 128 true] ∧
      (before.step Host.supply tooLarge).askedAll Host.supply true [.use true .acquire, tooLarge] =
        [] ∧
      ∃ account own, before.accounts true = some account ∧ account.pool.index.reserved ≤ 8 ∧
        (before.step Host.supply (.use true (.grow 1))).accounts true = some own ∧
        ∀ host, account.pool.index.roomy.push Host.supply ⟨4160, 1⟩ host =
          (some own.pool.index, host) := by
  intro before
  have hfound : (before.accounts true).isSome := rfl
  have hfull : ∀ account ∈ before.accounts true,
      account.pool.numSlabs = 4 ∧ account.pool.index.reserved = 4 := by
    decide +kernel
  obtain ⟨account, haccount⟩ := Option.isSome_iff_exists.mp hfound
  obtain ⟨hslabs, hreserved⟩ := hfull account haccount
  obtain ⟨hsnug, hlisted, hfruitless⟩ :=
    room_within_one_doubling Host.supply {} {} fourSlabs (by decide +kernel)
  obtain ⟨honce, hlater⟩ := hfruitless true account [tooLarge, .use true .acquire, tooLarge]
    haccount (by decide +kernel)
  have hdemand : ∀ count, before.demand? (.use true (.grow count)) =
      some ⟨true, account.pool, count⟩ := by
    intro count
    simp only [demand?, haccount]
    rfl
  have hsome : before.askedAll Host.supply true [tooLarge, .use true .acquire, tooLarge] ≠ [] :=
    fun hnone => absurd (congrArg List.length hnone) (by decide +kernel)
  obtain ⟨slab, own, hloan, hown, -, hpush⟩ := hlisted (.use true (.grow 1)) true account.pool 1
    (hdemand 1) [.allocate {} ⟨16, 8⟩ (.ok 4160), .reserve 128 true] rfl
    ⟨{}, 4160, ⟨16, 8⟩⟩ (List.mem_singleton_self _)
  obtain rfl : slab = ⟨4160, 1⟩ := by
    obtain ⟨first, count, hcount⟩ := slab
    obtain rfl : first = 4160 := congrArg Loan.block hloan
    have hbytes : 16 * count = 16 := congrArg (·.layout.size) hloan
    obtain rfl : count = 1 := by omega
    rfl
  have hattempt : before.Attempts true tooLarge := ⟨account.pool, _, hdemand _⟩
  refine ⟨?_, hlater [] tooLarge _ rfl hattempt, account, own, haccount, ?_, hown, hpush⟩
  · rw [honce.resolve_left hsome, SlabIndex.nextReserved, hreserved]
    rfl
  · have hle := (hsnug true account haccount).2.1
    rwa [hslabs] at hle

end Estate

end SlabPool
