import SlabPool.Host.Collaborator
import SlabPool.Proofs.Estate.Custody
import SlabPool.Session.Kind

/-!
Every slot is free or held.

The pool knows of its free slots only by the links that lie in them, and of the slots in use nothing
at all. All the same the two are a partition of the slots at every point of every run, where
allocators are honest and clients keep their contract: `Account.Divided` says so of one account, and
`Estate.divided_of_run` of all accounts that a run can lead to.

Two items in use therefore never share a byte, each lies in one slab and is aligned as its type asks
for, and the capacity of a pool is the number of its free slots and of its items in use.
-/

namespace SlabPool

/-- The slots of the pool are divided into the free ones, which the links lead through, and those
in use. -/
structure Account.Divided {T : ItemType} {α : Type} (account : Account T α) (memory : Memory)
    (free : List Nat) : Prop where
  holds : account.pool.free.Holds memory free
  perm : (free ++ account.held).Perm account.pool.index.slots
  nodup : (free ++ account.held).Nodup
  capacity_eq : account.pool.checkedCapacity = .ok (free.length + account.held.length)
  apart : account.held.Pairwise T.Apart
  inside : ∀ item ∈ account.held, ∃ slab ∈ account.pool.index.slabs,
    slab.first ≤ item ∧ item + T.size ≤ slab.first + slab.bytes
  aligned : ∀ item ∈ account.held, T.align ∣ item

theorem Account.Sound.divided {T : ItemType} {α : Type} {account : Account T α} {memory : Memory}
    {free : List Nat} (h : account.Sound memory free) (hspread : account.pool.index.Spread) :
    account.Divided memory free where
  holds := h.holds
  perm := h.perm
  nodup := (h.apart hspread).imp ItemType.Apart.ne
  capacity_eq := h.checkedCapacity_eq hspread
  apart := (List.pairwise_append.mp (h.apart hspread)).2.1
  inside := by
    intro item hitem
    obtain ⟨slab, hslab, hmem⟩ := SlabIndex.mem_slots.mp (h.mem_slots_of_held hitem)
    exact ⟨slab, hslab, Slab.bounds_of_mem_slots hmem⟩
  aligned := fun item hitem => hspread.slot_aligned (h.mem_slots_of_held hitem)

namespace Estate

variable {ι α σ : Type} {T : ι → ItemType} [Fintype ι] [DecidableEq ι] [DecidableEq α]

/-- At any point of a run in which clients keep their contract, acquisitions can be counted and
allocators are honest, the slots of each pool are divided into free ones and those in use. -/
theorem divided_of_run (S : Supply α σ) (memory : Memory) (state : σ)
    (actions : List (Action T α)) (hlawful : (start memory state).LawfulCounted S actions)
    (hhonest : Honest ((start memory state).run S actions).calls) (i : ι)
    (account : Account (T i) α)
    (hfound : ((start memory state).run S actions).accounts i = some account) :
    ∃ free, account.Divided ((start memory state).run S actions).world.memory free := by
  have hbalanced : Balanced (start memory state : Estate T α σ) := .start memory state
  have hsound := (Sound.start memory state).run S hbalanced hlawful hhonest
  obtain ⟨free, hfree⟩ := hsound i account hfound
  exact ⟨free, hfree.divided ((hbalanced.run S actions).spread hhonest hfound)⟩

/-- Two pools that take turns: the second is made with two slots, hands both out, is written into,
gets one back, and grows while the other slot is in use. -/
def takingTurns : List (Action (fun _ : Bool => Kind.pair.itemType) Collaborator) :=
  [.build false { allocator := {} },
    .build true { allocator := {}, initial := some 2 },
    .use false .acquire,
    .use true .acquire,
    .use true (.insert (Kind.pair.fit [6, 7])),
    .use true (.scribble 4096 8 [0]),
    .use true (.release 4096),
    .use true (.grow 3),
    .use false (.insert (Kind.pair.fit [8, 9]))]

theorem divided_of_takingTurns :
    ∃ account, ((start {} {}).run Host.supply takingTurns).accounts true = some account ∧
      account.held = [4112] ∧
      ∃ free, account.Divided ((start {} {}).run Host.supply takingTurns).world.memory free := by
  have hfound : (((start {} {}).run Host.supply takingTurns).accounts true).isSome := rfl
  refine ⟨_, (Option.some_get hfound).symm, rfl, ?_⟩
  exact divided_of_run Host.supply {} {} takingTurns (by decide) (by decide) true _
    (Option.some_get hfound).symm

end Estate

end SlabPool
