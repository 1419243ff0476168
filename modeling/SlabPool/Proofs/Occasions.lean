import SlabPool.Proofs.Account.Turnover
import SlabPool.Proofs.Frame
import SlabPool.Proofs.Places

/-!
Requests among the doings of others.

A client who names items by their places makes its requests on *occasions*. Before each of them,
others may do to the memory and to the surroundings what they like, as long as they keep out of the
slots of the pool (`Account.Spared`). An allocator may write into blocks it got back, and lend them
again as they are, so that whatever a pool is lent may hold anything.

The contract of clients over a series of occasions is `Account.LawfulByAt`, given what may be
requested of one account.
-/

namespace SlabPool

variable {T : ItemType} {α σ : Type}

/-- A request, and what others do before it is made. -/
structure Occasion (T : ItemType) (σ : Type) where
  request : Request T Place
  memory : Memory → Memory := id
  state : σ → σ := id

namespace Occasion

/-- The surroundings to which the request is made. -/
def supply (occasion : Occasion T σ) (record : Recorded α σ) : Recorded α σ :=
  { record with state := occasion.state record.state }

/-- The world in which the request is made. -/
def world (occasion : Occasion T σ) (world : World (Recorded α σ)) : World (Recorded α σ) where
  memory := occasion.memory world.memory
  supply := occasion.supply world.supply

/-- Requests that are made while others do nothing. -/
def quiet (requests : List (Request T Place)) : List (Occasion T σ) :=
  requests.map fun request => { request }

end Occasion

namespace Account

/-- The address that a client has for an item at a place. -/
def resolve (account : Account T α) (place : Place) : Nat :=
  (account.pool.index.address? place).getD 0

def attend (S : Supply α σ) (account : Account T α) (world : World (Recorded α σ))
    (occasion : Occasion T σ) : Served T α (Recorded α σ) :=
  account.serve S.recorded (occasion.world world) (occasion.request.map account.resolve)

theorem suffix_attend (S : Supply α σ) (account : Account T α) (world : World (Recorded α σ))
    (occasion : Occasion T σ) :
    world.supply.calls <:+ (account.attend S world occasion).world.supply.calls :=
  account.suffix_serve S (occasion.world world) (occasion.request.map account.resolve)

/-! ### The contract of clients -/

/-- The contract of clients who name items by their places. To read a value or to bring it to its
end, there has to be one. -/
def PermitsAt (account : Account T α) (request : Request T Place) : Prop :=
  account.Permits (request.map account.resolve) ∧
    match request with
    | .remove place | .read place => (account.contents (account.resolve place)).isSome
    | _ => True

instance (account : Account T α) (request : Request T Place) :
    Decidable (account.PermitsAt request) :=
  match request with
  | .acquire | .insert _ | .release _ | .grow _ | .check | .destroy | .write _ _
  | .scribble _ _ _ => inferInstanceAs (Decidable (_ ∧ True))
  | .remove _ | .read _ => inferInstanceAs (Decidable (_ ∧ _ = true))

/-- Besides, a slot is asked for only while its acquisition can be counted. -/
def PermitsCountedAt (account : Account T α) (request : Request T Place) : Prop :=
  account.PermitsAt request ∧ (request.takes = true → account.pool.acquired < Word.max)

instance (account : Account T α) (request : Request T Place) :
    Decidable (account.PermitsCountedAt request) :=
  inferInstanceAs (Decidable (_ ∧ _))

/-- The contract kept on every occasion. -/
def LawfulByAt (contract : Account T α → Request T Place → Prop) (S : Supply α σ) :
    Account T α → World (Recorded α σ) → List (Occasion T σ) → Prop
  | _, _, [] => True
  | account, world, occasion :: occasions =>
    let served := account.attend S world occasion
    contract account occasion.request ∧
      LawfulByAt contract S served.account served.world occasions

instance decidableLawfulByAt (contract : Account T α → Request T Place → Prop)
    [∀ account request, Decidable (contract account request)] (S : Supply α σ) :
    (account : Account T α) → (world : World (Recorded α σ)) →
      (occasions : List (Occasion T σ)) →
        Decidable (LawfulByAt contract S account world occasions)
  | _, _, [] => isTrue trivial
  | account, world, occasion :: occasions =>
    have := decidableLawfulByAt contract S (account.attend S world occasion).account
      (account.attend S world occasion).world occasions
    inferInstanceAs (Decidable (_ ∧ _))

abbrev LawfulAt (S : Supply α σ) (account : Account T α) (world : World (Recorded α σ))
    (occasions : List (Occasion T σ)) : Prop :=
  LawfulByAt PermitsAt S account world occasions

abbrev LawfulCountedAt (S : Supply α σ) (account : Account T α) (world : World (Recorded α σ))
    (occasions : List (Occasion T σ)) : Prop :=
  LawfulByAt PermitsCountedAt S account world occasions

/-! ### What others keep out of -/

/-- Others keep out of the slots of the pool on every occasion. -/
def Spared (S : Supply α σ) : Account T α → World (Recorded α σ) → List (Occasion T σ) → Prop
  | _, _, [] => True
  | account, world, occasion :: occasions =>
    let served := account.attend S world occasion
    (∀ item ∈ account.pool.index.slots,
        T.Keeps item world.memory (occasion.memory world.memory)) ∧
      served.account.Spared S served.world occasions

theorem spared_quiet (S : Supply α σ) (account : Account T α) (world : World (Recorded α σ))
    (requests : List (Request T Place)) : account.Spared S world (Occasion.quiet requests) := by
  induction requests generalizing account world with
  | nil => trivial
  | cons request requests ih => exact ⟨fun item _ => .refl item _, ih _ _⟩

end Account

end SlabPool
