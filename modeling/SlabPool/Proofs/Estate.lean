import Mathlib.Algebra.BigOperators.Group.Finset.Basic
import Mathlib.Algebra.Order.Group.Multiset
import Mathlib.Data.Fintype.BigOperators
import SlabPool.Pool.Blueprint
import SlabPool.Proofs.Account.Turnover

/-!
Several pools in one world.

Pools share the memory, the heap and the allocators, and are made and dropped while others are in
use. An `Estate` is a world with a finite family of accounts in it, each of which exists or not; the
pools of a family need not be of the same type of items. An `Action` makes a pool, drops it, or is a
request to it, and `Estate.run` carries out any list of actions, in any order. Others use memory as
well: the owner of a block that was given back may write into it, so that whatever a pool gets may
hold anything. That, too, is an `Action`.

Nothing is assumed of actions here. `Estate.LawfulBy` is the contract over a whole run, given what
the clients of one pool may do: at every request, the client of the pool in question is permitted to
make it, and others keep out of the slots of all pools. `Lawful` is that contract for clients that
use only what they hold; `LawfulCounted` and `LawfulValued` ask a little more of them.
-/

namespace SlabPool

variable {ι α σ : Type} {T : ι → ItemType}

inductive Action (T : ι → ItemType) (α : Type) where
  | build (i : ι) (plan : Blueprint α)
  | use (i : ι) (request : Request (T i) Nat)
  | drop (i : ι)
  /-- A word is written by somebody who asks no pool for it: by an allocator into a block it got
  back, or before it lends one. -/
  | elsewhere (address word : Nat)

namespace Action

/-- The action ends the hold on an item of the pool `i`, or is meant to. -/
def Ends (i : ι) (item : Nat) : Action T α → Prop
  | build _ _ | elsewhere _ _ => False
  | use j request => j = i ∧ request.Ends item
  | drop j => j = i

/-- The action writes into an item of the pool `i` on behalf of a client. -/
def Overwrites (i : ι) (item : Nat) : Action T α → Prop
  | use j request => j = i ∧ request.Overwrites item
  | _ => False

/-- The action is about the pool `i`. -/
def About (i : ι) : Action T α → Prop
  | build j _ | use j _ | drop j => j = i
  | elsewhere _ _ => False

/-- The action gives all slabs of the pool `i` back. -/
def Clears (i : ι) : Action T α → Prop
  | build _ _ | elsewhere _ _ => False
  | use j request => j = i ∧ request = .destroy
  | drop j => j = i

/-- An action is about one pool at most. -/
theorem About.unique {action : Action T α} {i j : ι} (h : action.About i) (h' : action.About j) :
    i = j := by
  cases action with
  | build | use | drop => exact h.symm.trans h'
  | elsewhere => exact h.elim

theorem about_of_clears {action : Action T α} {i : ι} (h : action.Clears i) : action.About i := by
  cases action with
  | build | elsewhere => exact h.elim
  | use j request => exact h.1
  | drop j => exact h

instance [DecidableEq ι] (i : ι) : (action : Action T α) → Decidable (action.About i)
  | .build _ _ | .use _ _ | .drop _ => inferInstanceAs (Decidable (_ = _))
  | .elsewhere _ _ => isFalse id

instance [DecidableEq ι] (i : ι) : (action : Action T α) → Decidable (action.Clears i)
  | .use _ .destroy => decidable_of_iff (_ = i) ⟨fun h => ⟨h, rfl⟩, And.left⟩
  | .use _ .acquire | .use _ (.insert _) | .use _ (.release _) | .use _ (.remove _)
  | .use _ (.grow _) | .use _ .check | .use _ (.read _) | .use _ (.write _ _)
  | .use _ (.scribble _ _ _) => isFalse nofun
  | .build _ _ | .elsewhere _ _ => isFalse id
  | .drop j => inferInstanceAs (Decidable (j = i))

end Action

structure Estate (T : ι → ItemType) (α σ : Type) where
  world : World (Recorded α σ)
  accounts : (i : ι) → Option (Account (T i) α)

namespace Estate

def start (memory : Memory) (state : σ) : Estate T α σ where
  world := { memory, supply := { state } }
  accounts _ := none

/-- All calls that were made so far, the latest first. -/
def calls (estate : Estate T α σ) : List (Call α) :=
  estate.world.supply.calls

/-- The blocks of the pool `i`, in the order of its slabs. -/
def blocks (estate : Estate T α σ) (i : ι) : List (Loan α) :=
  match estate.accounts i with
  | none => []
  | some account => account.loans

theorem blocks_of_none {estate : Estate T α σ} {i : ι} (h : estate.accounts i = none) :
    estate.blocks i = [] := by
  simp [blocks, h]

theorem blocks_of_some {estate : Estate T α σ} {i : ι} {account : Account (T i) α}
    (h : estate.accounts i = some account) : estate.blocks i = account.loans := by
  simp [blocks, h]

/-! ### Another memory -/

/-- The same pools over another memory. -/
def withMemory (estate : Estate T α σ) (memory : Memory) : Estate T α σ :=
  { estate with world.memory := memory }

@[simp] theorem calls_withMemory (estate : Estate T α σ) (memory : Memory) :
    (estate.withMemory memory).calls = estate.calls := rfl

@[simp] theorem accounts_withMemory (estate : Estate T α σ) (memory : Memory) :
    (estate.withMemory memory).accounts = estate.accounts := rfl

@[simp] theorem blocks_withMemory (estate : Estate T α σ) (memory : Memory) :
    (estate.withMemory memory).blocks = estate.blocks := rfl

/-! ### The contract of clients -/

/-- What clients may do to the pools of a family, one at a time. -/
abbrev Contract (T : ι → ItemType) (α : Type) :=
  (i : ι) → Account (T i) α → Request (T i) Nat → Prop

/-- The address lies in no slot of any pool. -/
def Outside (estate : Estate T α σ) (address : Nat) : Prop :=
  ∀ i, ∀ account ∈ estate.accounts i, ∀ item ∈ account.pool.index.slots, ¬ (T i).Covers item address

instance [Fintype ι] (estate : Estate T α σ) (address : Nat) : Decidable (estate.Outside address) :=
  inferInstanceAs (Decidable (∀ _, ∀ _ ∈ _, ∀ _ ∈ _, ¬ _))

/-- The contract kept at one action. Whoever writes a word without asking a pool keeps out of the
slots of all pools. -/
def PermitsBy (contract : Contract T α) (estate : Estate T α σ) : Action T α → Prop
  | .use i request => ∀ account ∈ estate.accounts i, contract i account request
  | .elsewhere address _ => estate.Outside address
  | .build _ _ | .drop _ => True

instance [Fintype ι] (contract : Contract T α)
    [∀ i account request, Decidable (contract i account request)] (estate : Estate T α σ)
    (action : Action T α) : Decidable (estate.PermitsBy contract action) :=
  match action with
  | .use _ _ => inferInstanceAs (Decidable (∀ account ∈ _, _))
  | .elsewhere _ _ => inferInstanceAs (Decidable (Outside _ _))
  | .build _ _ | .drop _ => isTrue trivial

theorem PermitsBy.mono {contract weaker : Contract T α} {estate : Estate T α σ}
    {action : Action T α} (h : estate.PermitsBy contract action)
    (hmono : ∀ i account request, contract i account request → weaker i account request) :
    estate.PermitsBy weaker action := by
  cases action with
  | use i request => exact fun account hfound => hmono i account request (h account hfound)
  | elsewhere => exact h
  | build | drop => trivial

abbrev Permits (estate : Estate T α σ) (action : Action T α) : Prop :=
  estate.PermitsBy (fun _ => Account.Permits) action

abbrev PermitsCounted (estate : Estate T α σ) (action : Action T α) : Prop :=
  estate.PermitsBy (fun _ => Account.PermitsCounted) action

abbrev PermitsValued (estate : Estate T α σ) (action : Action T α) : Prop :=
  estate.PermitsBy (fun _ => Account.PermitsValued) action

theorem PermitsCounted.permits {estate : Estate T α σ} {action : Action T α}
    (h : estate.PermitsCounted action) : estate.Permits action :=
  h.mono fun _ _ _ hcounted => hcounted.1

theorem PermitsValued.permits {estate : Estate T α σ} {action : Action T α}
    (h : estate.PermitsValued action) : estate.Permits action :=
  h.mono fun _ _ _ hvalued => hvalued.1

/-! ### Runs -/

variable [DecidableEq ι]

/-- Enters what became of the world and of one pool. -/
def put (estate : Estate T α σ) (i : ι) (world : World (Recorded α σ))
    (account : Option (Account (T i) α)) : Estate T α σ where
  world
  accounts := Function.update estate.accounts i account

/-- Carries an action out. One that asks for a pool there is not, or makes a pool there is already,
changes nothing. -/
def step (S : Supply α σ) (estate : Estate T α σ) : Action T α → Estate T α σ
  | .build i plan =>
    match estate.accounts i with
    | some _ => estate
    | none =>
      let reply := plan.build S.recorded (T i) estate.world
      estate.put i reply.world (reply.result.toOption.map fun pool => { pool })
  | .use i request =>
    match estate.accounts i with
    | none => estate
    | some account =>
      let served := account.serve S.recorded estate.world request
      estate.put i served.world (some served.account)
  | .drop i =>
    match estate.accounts i with
    | none => estate
    | some account =>
      estate.put i (account.pool.drop S.recorded estate.world).world none
  | .elsewhere address word => estate.withMemory (estate.world.memory.write address word)

theorem step_use (S : Supply α σ) {estate : Estate T α σ} {i : ι} {account : Account (T i) α}
    (h : estate.accounts i = some account) (request : Request (T i) Nat) :
    estate.step S (.use i request) =
      estate.put i (account.serve S.recorded estate.world request).world
        (some (account.serve S.recorded estate.world request).account) := by
  simp only [step, h]

def run (S : Supply α σ) (estate : Estate T α σ) (actions : List (Action T α)) : Estate T α σ :=
  actions.foldl (step S) estate

@[simp] theorem run_nil (S : Supply α σ) (estate : Estate T α σ) : estate.run S [] = estate := rfl

@[simp] theorem run_cons (S : Supply α σ) (estate : Estate T α σ) (action : Action T α)
    (actions : List (Action T α)) :
    estate.run S (action :: actions) = (estate.step S action).run S actions := rfl

theorem run_append (S : Supply α σ) (estate : Estate T α σ) (actions more : List (Action T α)) :
    estate.run S (actions ++ more) = (estate.run S actions).run S more :=
  List.foldl_append

/-- The contract kept at every action of a run. -/
def LawfulBy (contract : Contract T α) (S : Supply α σ) (estate : Estate T α σ) :
    List (Action T α) → Prop
  | [] => True
  | action :: actions =>
    estate.PermitsBy contract action ∧ (estate.step S action).LawfulBy contract S actions

instance decidableLawfulBy [Fintype ι] (contract : Contract T α)
    [∀ i account request, Decidable (contract i account request)] (S : Supply α σ) :
    (estate : Estate T α σ) → (actions : List (Action T α)) →
      Decidable (estate.LawfulBy contract S actions)
  | _, [] => isTrue trivial
  | estate, action :: actions =>
    have := decidableLawfulBy contract S (estate.step S action) actions
    inferInstanceAs (Decidable (_ ∧ _))

theorem lawfulBy_append {contract : Contract T α} {S : Supply α σ} {estate : Estate T α σ}
    {actions more : List (Action T α)} :
    estate.LawfulBy contract S (actions ++ more) ↔
      estate.LawfulBy contract S actions ∧ (estate.run S actions).LawfulBy contract S more := by
  induction actions generalizing estate with
  | nil => simp [LawfulBy]
  | cons action actions ih => simp [LawfulBy, ih, and_assoc]

theorem LawfulBy.mono {contract weaker : Contract T α} {S : Supply α σ} {estate : Estate T α σ}
    {actions : List (Action T α)} (h : estate.LawfulBy contract S actions)
    (hmono : ∀ i account request, contract i account request → weaker i account request) :
    estate.LawfulBy weaker S actions := by
  induction actions generalizing estate with
  | nil => trivial
  | cons action actions ih => exact ⟨h.1.mono hmono, ih h.2⟩

/-- Clients keep to what they hold, at every action of a run. -/
abbrev Lawful (S : Supply α σ) (estate : Estate T α σ) (actions : List (Action T α)) : Prop :=
  estate.LawfulBy (fun _ => Account.Permits) S actions

/-- Besides, they ask for slots only while acquisitions can be counted. -/
abbrev LawfulCounted (S : Supply α σ) (estate : Estate T α σ) (actions : List (Action T α)) :
    Prop :=
  estate.LawfulBy (fun _ => Account.PermitsCounted) S actions

/-- Besides, they remove only items with values in them. -/
abbrev LawfulValued (S : Supply α σ) (estate : Estate T α σ) (actions : List (Action T α)) : Prop :=
  estate.LawfulBy (fun _ => Account.PermitsValued) S actions

theorem LawfulCounted.lawful {S : Supply α σ} {estate : Estate T α σ} {actions : List (Action T α)}
    (h : estate.LawfulCounted S actions) : estate.Lawful S actions :=
  h.mono fun _ _ _ hcounted => hcounted.1

theorem LawfulValued.lawful {S : Supply α σ} {estate : Estate T α σ} {actions : List (Action T α)}
    (h : estate.LawfulValued S actions) : estate.Lawful S actions :=
  h.mono fun _ _ _ hvalued => hvalued.1

/-! ### One member changes -/

section Put

variable (estate : Estate T α σ) (i : ι) (world : World (Recorded α σ))
  (account : Option (Account (T i) α))

@[simp] theorem world_put : (estate.put i world account).world = world := rfl

@[simp] theorem calls_put : (estate.put i world account).calls = world.supply.calls := rfl

@[simp] theorem accounts_put_self : (estate.put i world account).accounts i = account :=
  Function.update_self ..

theorem accounts_put_of_ne {j : ι} (h : j ≠ i) :
    (estate.put i world account).accounts j = estate.accounts j :=
  Function.update_of_ne h ..

theorem blocks_put_of_ne {j : ι} (h : j ≠ i) :
    (estate.put i world account).blocks j = estate.blocks j := by
  rw [blocks, blocks, accounts_put_of_ne estate i world account h]

end Put

theorem accounts_step_use (S : Supply α σ) {estate : Estate T α σ} {i : ι}
    {account : Account (T i) α} (h : estate.accounts i = some account)
    (request : Request (T i) Nat) :
    (estate.step S (.use i request)).accounts i =
      some (account.serve S.recorded estate.world request).account := by
  rw [step_use S h, accounts_put_self]

theorem world_step_use (S : Supply α σ) {estate : Estate T α σ} {i : ι}
    {account : Account (T i) α} (h : estate.accounts i = some account)
    (request : Request (T i) Nat) :
    (estate.step S (.use i request)).world =
      (account.serve S.recorded estate.world request).world := by
  rw [step_use S h, world_put]

/-- What an action can do to an estate: nothing, something to one member, or something to memory
alone. -/
inductive Stepped (S : Supply α σ) (estate : Estate T α σ) :
    Action T α → Estate T α σ → Prop
  | skipped (action : Action T α)
    (idle : ∀ i, action.Clears i → estate.accounts i = none) :
    Stepped S estate action estate
  | built (i : ι) (plan : Blueprint α) (reply : Reply (Recorded α σ) (Pool (T i) α))
    (pool : Pool (T i) α)
    (missing : estate.accounts i = none)
    (reply_eq : plan.build S.recorded (T i) estate.world = reply)
    (result_eq : reply.result = .ok pool) :
    Stepped S estate (.build i plan) (estate.put i reply.world (some { pool }))
  | unbuilt (i : ι) (plan : Blueprint α) (reply : Reply (Recorded α σ) (Pool (T i) α))
    (stop : Stop)
    (missing : estate.accounts i = none)
    (reply_eq : plan.build S.recorded (T i) estate.world = reply)
    (result_eq : reply.result = .error stop) :
    Stepped S estate (.build i plan) (estate.put i reply.world none)
  | served (i : ι) (account : Account (T i) α) (request : Request (T i) Nat)
    (served : Served (T i) α (Recorded α σ))
    (found : estate.accounts i = some account)
    (served_eq : account.serve S.recorded estate.world request = served) :
    Stepped S estate (.use i request) (estate.put i served.world (some served.account))
  | dropped (i : ι) (account : Account (T i) α) (reply : Reply (Recorded α σ) Unit)
    (found : estate.accounts i = some account)
    (reply_eq : account.pool.drop S.recorded estate.world = reply) :
    Stepped S estate (.drop i) (estate.put i reply.world none)
  | disturbed (address word : Nat) :
    Stepped S estate (.elsewhere address word)
      (estate.withMemory (estate.world.memory.write address word))

theorem stepped (S : Supply α σ) (estate : Estate T α σ) (action : Action T α) :
    estate.Stepped S action (estate.step S action) := by
  cases action with
  | build i plan =>
      cases h : estate.accounts i with
      | some account =>
          simp only [step, h]
          exact .skipped _ nofun
      | none =>
          cases hresult : (plan.build S.recorded (T i) estate.world).result with
          | error stop =>
              simp only [step, h, hresult]
              exact .unbuilt i plan _ stop h rfl hresult
          | ok pool =>
              simp only [step, h, hresult]
              exact .built i plan _ pool h rfl hresult
  | use i request =>
      cases h : estate.accounts i with
      | none =>
          simp only [step, h]
          refine .skipped _ ?_
          rintro j ⟨rfl, -⟩
          exact h
      | some account =>
          simp only [step, h]
          exact .served i account request _ h rfl
  | drop i =>
      cases h : estate.accounts i with
      | none =>
          simp only [step, h]
          refine .skipped _ ?_
          rintro j rfl
          exact h
      | some account =>
          simp only [step, h]
          exact .dropped i account _ h rfl
  | elsewhere address word => exact .disturbed address word

/-! ### The record of calls -/

theorem suffix_step (S : Supply α σ) (estate : Estate T α σ) (action : Action T α) :
    estate.calls <:+ (estate.step S action).calls := by
  generalize hafter : estate.step S action = after
  have hstepped := hafter ▸ estate.stepped S action
  cases hstepped with
  | skipped => exact List.suffix_rfl
  | built i plan reply pool _ hreply _ => exact hreply ▸ plan.suffix_build S estate.world
  | unbuilt i plan reply stop _ hreply _ => exact hreply ▸ plan.suffix_build S estate.world
  | served i account request served _ hserved =>
      exact hserved ▸ account.suffix_serve S estate.world request
  | dropped i account reply _ hreply =>
      rw [← hreply, Pool.drop_eq]
      exact account.pool.suffix_destroy S estate.world
  | disturbed => exact List.suffix_rfl

theorem suffix_run (S : Supply α σ) (estate : Estate T α σ) (actions : List (Action T α)) :
    estate.calls <:+ (estate.run S actions).calls := by
  induction actions generalizing estate with
  | nil => exact List.suffix_rfl
  | cons action actions ih => exact (estate.suffix_step S action).trans (ih _)

end Estate

end SlabPool
