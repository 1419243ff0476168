import SlabPool.Proofs.Account.Custody
import SlabPool.Proofs.FailedGrowth

/-!
What a request does to the free slots, in order.

The free list is a stack of slots. A request takes the first slot off it, puts one back on top of
it, or puts all slots of a new slab on top of it, lowest first; a slot that is asked for while the
stack is empty is the first slot of a new slab. `Account.Restocked` lists these together with the
slots that are handed out, and `Account.Sound.restocked` says that a request that clients may make
does one of them, unless it ends all slabs.
-/

namespace SlabPool

variable {T : ItemType} {α σ : Type}

/-- The slots that an answer hands out. -/
def Outcome.handed : Except Stop (Outcome T Nat) → List Nat
  | .ok (.item slot) => [slot]
  | _ => []

@[simp] theorem Outcome.handed_done {β : Type} (result : Except Stop β) :
    Outcome.handed (result.map fun _ => (.done : Outcome T Nat)) = [] := by
  cases result with
  | error stop => rfl
  | ok done => rfl

theorem Pool.insert_of_ok (S : Supply α σ) {pool : Pool T α} {value : T.Value} {world : World σ}
    {item : Nat} (h : (pool.acquire S world).result = .ok item) :
    pool.insert S value world =
      { pool.acquire S world with
        world := { (pool.acquire S world).world with
          memory := ItemType.store (pool.acquire S world).world.memory item value } } := by
  simp only [Pool.insert, h]

namespace Account

/-- What a request does to the slabs and to the free slots of an account, and what it hands out. -/
inductive Restocked (account : Account T α) (free : List Nat)
    (served : Served T α (Recorded α σ)) : Prop
  | still
      (handed_eq : Outcome.handed served.result = [])
      (slabs_eq : served.account.pool.index.slabs = account.pool.index.slabs)
      (sound : served.account.Sound served.world.memory free)
  | taken (item : Nat) (rest : List Nat)
      (free_eq : free = item :: rest)
      (handed_eq : Outcome.handed served.result = [item])
      (slabs_eq : served.account.pool.index.slabs = account.pool.index.slabs)
      (sound : served.account.Sound served.world.memory rest)
  | opened (slab : Slab T) (rest : List Nat)
      (free_eq : free = [])
      (slots_eq : slab.slots = slab.first :: rest)
      (handed_eq : Outcome.handed served.result = [slab.first])
      (slabs_eq : served.account.pool.index.slabs = account.pool.index.slabs ++ [slab])
      (sound : served.account.Sound served.world.memory rest)
  | returned (item : Nat)
      (handed_eq : Outcome.handed served.result = [])
      (slabs_eq : served.account.pool.index.slabs = account.pool.index.slabs)
      (sound : served.account.Sound served.world.memory (item :: free))
  | added (slab : Slab T)
      (handed_eq : Outcome.handed served.result = [])
      (slabs_eq : served.account.pool.index.slabs = account.pool.index.slabs ++ [slab])
      (sound : served.account.Sound served.world.memory (slab.slots ++ free))

namespace Sound

variable {account : Account T α} {free rest : List Nat} {item : Nat} {request : Request T Nat}

theorem withRoom {memory : Memory} (h : account.Sound memory free) (room : Nat) :
    (account.withRoom room).Sound memory free :=
  ⟨h.holds, h.perm, h.values⟩

/-- A slot is handed out, and may be written into at once. It may be one of a slab that was added
for the purpose. -/
theorem serve_of_acquired (S : Supply α σ) {world : World (Recorded α σ)} {pool : Pool T α}
    {memory : Memory} (h : Account.Sound { account with pool } memory (item :: rest))
    (htakes : request.takes = true) {acquired : Nat} (hspread : pool.index.Spread)
    (hresult : (account.pool.acquire S.recorded world).result = .ok item)
    (hmemory : (account.pool.acquire S.recorded world).world.memory = memory)
    (hpool : (account.pool.acquire S.recorded world).pool =
      { pool with free := ⟨memory.link item⟩, acquired }) :
    let served := account.serve S.recorded world request
    Outcome.handed served.result = [item] ∧
      served.account.pool.index.slabs = pool.index.slabs ∧
      served.account.Sound served.world.memory rest := by
  have htaken := h.take { pool with free := ⟨memory.link item⟩, acquired } rfl rfl
  cases request with
  | acquire =>
      simp only [Account.serve, handOut, hresult, hmemory, hpool]
      exact ⟨rfl, trivial, htaken⟩
  | insert value =>
      have haligned : 8 ∣ item := htaken.eight_dvd_held hspread List.mem_cons_self
      have hstored := htaken.write hspread List.mem_cons_self (.store haligned memory value)
        (fun _ h => ItemType.load_of_stored h _ _)
      rw [Function.update_idem] at hstored
      simp only [Account.serve, handOut, Pool.insert_of_ok S.recorded hresult, hresult, hmemory,
        hpool]
      exact ⟨rfl, trivial, hstored⟩
  | release | remove | grow | check | destroy | read | write | scribble => cases htakes

theorem restocked_of_failsToGrow (S : Supply α σ) {world : World (Recorded α σ)}
    (h : account.Sound world.memory free)
    (hfails : account.FailsToGrow S.recorded world request) :
    account.Restocked free (account.serve S.recorded world request) := by
  obtain ⟨⟨stop, hresult⟩, hmemory, room, -, haccount⟩ := account.serve_of_failsToGrow S hfails
  refine .still ?_ ?_ ?_
  · rw [hresult]
    rfl
  · rw [haccount]
    rfl
  · rw [haccount, hmemory]
    exact h.withRoom room

theorem restocked_of_takes (S : Supply α σ) {world : World (Recorded α σ)}
    (h : account.Sound world.memory free) (htakes : request.takes = true)
    (hcount : account.pool.acquired < Word.max) (hspread : account.pool.index.Spread)
    (hspread' : (account.serve S.recorded world request).account.pool.index.Spread) :
    account.Restocked free (account.serve S.recorded world request) := by
  cases free with
  | cons item rest =>
      have hturn := Pool.acquire_of_holds S.recorded h.holds hcount
      obtain ⟨hhanded, hslabs, hsound⟩ :=
        serve_of_acquired S h htakes hspread (congrArg (·.result) hturn)
          (congrArg (·.world.memory) hturn) (congrArg (·.pool) hturn)
      exact .taken item rest rfl hhanded hslabs hsound
  | nil =>
      have hhead : account.pool.free.head = none := h.holds
      have hgrowth := account.pool.grow_growth S account.pool.nextGrowth world
      have hindex : (account.serve S.recorded world request).account.pool.index =
          (account.pool.grow S.recorded account.pool.nextGrowth world).pool.index := by
        rw [account.serve_pool_of_takes S.recorded world htakes,
          Pool.index_acquire_of_none S.recorded hhead]
      cases h.grown hgrowth (hindex ▸ hspread') with
      | failed stop hresult _ _ _ =>
          exact h.restocked_of_failsToGrow S
            ⟨_, Pool.demand?_of_none htakes hhead, stop, hresult⟩
      | added slab hresult _ hslabs hacquired _ _ hsound =>
          -- the first slot of the new slab is taken from it as from any other
          have hturn := Pool.acquire_of_added S.recorded hhead hresult
          rw [List.append_nil, slab.slots_eq_cons] at hsound
          have htake := Pool.take_of_holds hsound.holds (hacquired ▸ hcount)
          obtain ⟨hhanded, hsame, hafter⟩ :=
            serve_of_acquired S hsound htakes (hindex ▸ hspread')
              ((congrArg (·.result) hturn).trans (congrArg (·.1) htake))
              (congrArg (·.world.memory) hturn)
              ((congrArg (·.pool) hturn).trans (congrArg (·.2) htake))
          exact .opened slab _ rfl slab.slots_eq_cons hhanded (hsame.trans hslabs) hafter

theorem restocked (S : Supply α σ) {world : World (Recorded α σ)}
    (h : account.Sound world.memory free) (hne : request ≠ .destroy)
    (hcounted : account.PermitsCounted request) (hspread : account.pool.index.Spread)
    (hspread' : (account.serve S.recorded world request).account.pool.index.Spread) :
    account.Restocked free (account.serve S.recorded world request) := by
  obtain ⟨hpermits, hcount⟩ := hcounted
  cases request with
  | acquire => exact h.restocked_of_takes S rfl (hcount rfl) hspread hspread'
  | insert value => exact h.restocked_of_takes S rfl (hcount rfl) hspread hspread'
  | release item => exact .returned item rfl rfl (h.release hspread hpermits)
  | remove item =>
      simp only [Account.serve, Pool.remove]
      split
      · exact .still rfl rfl (h.write hspread hpermits (.refl _ _) (by simp))
      · exact .returned item rfl rfl (h.release hspread hpermits)
  | grow capacity =>
      cases h.grown (account.pool.grow_growth S capacity world) hspread' with
      | failed stop hresult _ _ _ =>
          exact h.restocked_of_failsToGrow S ⟨capacity, rfl, stop, hresult⟩
      | added slab hresult _ hslabs _ _ _ hsound =>
          refine .added slab ?_ hslabs hsound
          simp only [Account.serve, hresult]
          rfl
  | check =>
      simp only [Account.serve]
      split
      · exact .still rfl rfl h
      · exact .still rfl rfl h
  | destroy => exact absurd rfl hne
  | read item => exact .still rfl rfl h
  | write item value =>
      have haligned := h.eight_dvd_held hspread hpermits
      exact .still rfl rfl (h.write hspread hpermits (.store haligned _ value)
        fun _ h => ItemType.load_of_stored h _ _)
  | scribble item offset words =>
      obtain ⟨hitem, hoffset, hfits⟩ := hpermits
      have haligned := h.eight_dvd_held hspread hitem
      refine .still rfl rfl (h.write hspread hitem (.writeRow haligned hoffset hfits _) ?_)
      intro value hvalue
      exact ItemType.load_of_overwritten haligned hoffset (h.values item hitem) hvalue

end Sound

end Account

end SlabPool
