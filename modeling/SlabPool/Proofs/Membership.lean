import Mathlib.Data.Set.Card
import SlabPool.Host.Collaborator
import SlabPool.Proofs.Estate.Balance
import SlabPool.Session.Kind

/-!
The test for slots.

Whether an address is that of a slot is decided by arithmetic on words: an offset that may not
exist, the size of the slab as a product that may wrap, and a remainder. A slab that was allocated
has a layout, and so the product does not wrap; what is left is division with remainder
(`Slab.contains_iff_of_allocate`). Nothing in it depends on the size of the items: nine bytes do as
well as eight, although no pool has such items.

The slabs of a pool share no byte where allocators are honest. So no address is taken for a slot of
two of them, and the addresses that are taken for slots at all are exactly as many as the pool says
that it has slots. The check of the free list rests on both. Clients have no part in it: the test
reads neither the free list nor the slots.

Main statement: `Estate.contains_exact`.
-/

namespace SlabPool

variable {α σ : Type}

/-! ### One slab -/

section

variable {T : Shape}

theorem Slab.allocate_eq_ok (S : Supply α σ) {allocator : α} {capacity : Capacity} {supply : σ}
    {slab : Slab T} (h : (Slab.allocate S allocator T capacity supply).1 = .ok slab) :
    slab.capacity = capacity ∧ ∃ layout, Slab.layout T capacity = .ok layout := by
  cases hlayout : Slab.layout T capacity with
  | error failure =>
      simp only [Slab.allocate, hlayout] at h
      cases h
  | ok layout =>
      simp only [Slab.allocate, hlayout] at h
      split at h
      · cases h
      · cases h
        exact ⟨rfl, layout, rfl⟩

/-- The test is exact for a slab wherever its block lies. -/
theorem Slab.contains_iff_of_allocate (S : Supply α σ) {allocator : α} {capacity : Capacity}
    {supply : σ} {slab : Slab T}
    (h : (Slab.allocate S allocator T capacity supply).1 = .ok slab) {address : Nat} :
    slab.contains address = true ↔
      ∃ number < capacity.val, address = slab.first + number * T.size := by
  obtain ⟨rfl, layout, hlayout⟩ := Slab.allocate_eq_ok S h
  exact Slab.contains_iff (Slab.size_lt_modulus hlayout)

end

/-! ### All slabs of a pool -/

namespace SlabIndex.Spread

variable {T : ItemType} {index : SlabIndex T} {address : Nat}

theorem existsUnique_contains (h : index.Spread) (haddress : index.contains address = true) :
    ∃! number : Nat, ∃ slab, index.slabs[number]? = some slab ∧
      slab.contains address = true := by
  obtain ⟨slab, hslab, hcontains⟩ := List.any_eq_true.mp haddress
  obtain ⟨number, hnumber⟩ := List.mem_iff_getElem?.mp hslab
  refine ⟨number, ⟨slab, hnumber, hcontains⟩, ?_⟩
  rintro other ⟨next, hother, hcontains'⟩
  rw [h.slab_contains_iff (List.mem_of_getElem? hother)] at hcontains'
  rw [h.slab_contains_iff hslab] at hcontains
  exact h.eq_of_mem_slots hother hnumber hcontains' hcontains

/-- As many addresses are taken for slots as there are slots. -/
theorem encard_contains (h : index.Spread) :
    Set.encard {address | index.contains address = true} = Word.total index.capacities := by
  simp only [h.contains_iff]
  rw [← List.coe_toFinset, Set.encard_coe_eq_coe_finsetCard,
    List.toFinset_card_of_nodup h.slots_nodup, index.length_slots]

end SlabIndex.Spread

/-! ### Pools in use -/

namespace Estate

variable {ι : Type} {T : ι → ItemType} [Fintype ι] [DecidableEq ι] [DecidableEq α]

/-- A slab of items of any shape, wherever it is allocated, tells the addresses of its slots from
all others. So in a pool whose allocators are honest, whatever its clients do, every address that is
taken for a slot is a word, belongs to one slab, and there are as many of them as slots. -/
theorem contains_exact (S : Supply α σ) (memory : Memory) (state : σ)
    (actions : List (Action T α)) :
    (∀ (shape : Shape) allocator capacity supply (slab : Slab shape),
      (Slab.allocate S allocator shape capacity supply).1 = .ok slab → ∀ address,
        slab.contains address = true ↔
          ∃ number < capacity.val, address = slab.first + number * shape.size) ∧
    (Honest ((start memory state).run S actions).calls → ∀ i account,
      ((start memory state).run S actions).accounts i = some account →
        (∀ address, account.pool.index.contains address = true →
          0 < address ∧ address < Word.modulus ∧
          ∃! number : Nat, ∃ slab, account.pool.index.slabs[number]? = some slab ∧
            slab.contains address = true) ∧
        Set.encard {address | account.pool.index.contains address = true} =
          account.pool.capacity ∧
        account.pool.checkedCapacity = .ok account.pool.capacity) := by
  refine ⟨fun shape allocator capacity supply slab h address =>
    Slab.contains_iff_of_allocate S h, ?_⟩
  intro hhonest i account hfound
  have hbalanced : Balanced (start memory state : Estate T α σ) := .start memory state
  have hspread := (hbalanced.run S actions).spread hhonest hfound
  refine ⟨?_, hspread.encard_contains, Pool.checkedCapacity_of_spread hspread⟩
  intro address haddress
  have hslot := hspread.contains_iff.mp haddress
  exact ⟨hspread.slot_pos hslot, hspread.slot_lt hslot, hspread.existsUnique_contains haddress⟩

/-- A pool of three slots grows by two, and takes a slot back that it never handed out. -/
def misused : List (Action (fun _ : Bool => Kind.pair.itemType) Collaborator) :=
  [.build true { allocator := {}, initial := some 3 },
    .use true (.grow 2),
    .use true (.release 4096)]

/-- Three numbers of four bytes each. -/
def trio : Shape := { size := 12, align := 4 }

theorem contains_exact_of_misused :
    (∀ address, (⟨4096, 5⟩ : Slab trio).contains address = true ↔
      ∃ number < 5, address = 4096 + number * 12) ∧
    ∃ account, ((start {} {}).run Host.supply misused).accounts true = some account ∧
      Set.encard {address | account.pool.index.contains address = true} = 5 := by
  have hfound : (((start {} {}).run Host.supply misused).accounts true).isSome := rfl
  obtain ⟨hslab, hpool⟩ := contains_exact (T := fun _ : Bool => Kind.pair.itemType) Host.supply {}
    ({} : Host) misused
  refine ⟨hslab trio {} 5 {} _ rfl, _, (Option.some_get hfound).symm, ?_⟩
  obtain ⟨-, hcard, -⟩ := hpool (by decide) true _ (Option.some_get hfound).symm
  exact hcard

end Estate

end SlabPool
