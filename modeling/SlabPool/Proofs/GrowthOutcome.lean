import SlabPool.Host.Collaborator
import SlabPool.Proofs.Room
import SlabPool.Session.Kind

/-!
What comes of adding a slab.

There are four ends to it, told apart in this order. The list of slabs has no room and gets none;
the slots would take more than the largest block there can be; the allocator refuses the block; or
there is a slab more. A failure carries the numbers of the step at which it arose, and none of the
steps after it is taken. The sizes are those of ordinary arithmetic: where one is too large for a
word, the failure names the largest word, and no call is made with it.

A list is never given more bytes than `Layout.maxSize` allows. That is the one thing assumed of the
heap, and with it the size that a failure names for the list is always exact.

Main statement: `Estate.growth_outcome`.
-/

namespace SlabPool

variable {ι α σ : Type}

section

variable {T : ItemType}

/-- A block with as many bytes is too large. -/
theorem Layout.maxSize_lt_iff {size align : Nat} (hpos : 0 < size) :
    maxSize align < size ↔ 2 ^ 63 < size + align := by
  unfold maxSize
  omega

/-- Where the heap keeps to its limit, the bytes of the room for one slab more than there are make a
word. -/
theorem SlabIndex.Housed.bytes_le {index : SlabIndex T} {calls : List (Call α)}
    (h : index.Housed calls)
    (hheap : ∀ bytes, Call.reserve bytes true ∈ calls → bytes ≤ Layout.maxSize entryAlign) :
    entrySize * (index.slabs.length + 1) ≤ Word.max := by
  have hlength := h.length_le
  have hbytes : entrySize * index.reserved ≤ Layout.maxSize entryAlign := by
    rcases h.granted with hnone | hgranted
    · rw [hnone]
      exact Nat.zero_le _
    · exact hheap _ hgranted
  unfold entrySize Layout.maxSize entryAlign at hbytes
  unfold entrySize Word.max
  omega

theorem Pool.indexFailure_eq {pool : Pool T α} {calls : List (Call α)}
    (h : pool.index.Housed calls)
    (hheap : ∀ bytes, Call.reserve bytes true ∈ calls →
      bytes ≤ Layout.maxSize SlabIndex.entryAlign) :
    indexFailure (Word.saturatingAdd pool.numSlabs 1) = ⟨16 * (pool.numSlabs + 1), 8⟩ := by
  have hbytes : 16 * (pool.numSlabs + 1) ≤ Word.max := h.bytes_le hheap
  have hadd : Word.saturatingAdd pool.numSlabs 1 = pool.numSlabs + 1 := Nat.min_eq_left (by omega)
  rw [indexFailure, hadd]
  exact congrArg (AllocationFailure.mk · 8) (Nat.min_eq_left hbytes)

/-- The slots of a slab that is added come to stand before those that were free already. -/
theorem Account.Covered.holds_grow (S : Supply α σ) {account : Account T α}
    {world : World (Recorded α σ)} (h : account.Covered world.memory) {capacity : Capacity}
    {slab : Slab T} :
    let turn := account.pool.grow S.recorded capacity world
    turn.pool.index.Spread → turn.pool.index.slabs = account.pool.index.slabs ++ [slab] →
    ∃ free, account.pool.free.Holds world.memory free ∧
      turn.pool.free.Holds turn.world.memory (slab.slots ++ free) := by
  intro turn hspread hslabs
  obtain ⟨larger, free, hwithin, hsound, -⟩ := h
  have hpool := hwithin.pool_eq
  have hgrown : larger.Grown free capacity world.memory turn :=
    hsound.grown (hpool.symm ▸ account.pool.grow_growth S capacity world) hspread
  refine ⟨free, hpool ▸ hsound.holds, ?_⟩
  cases hgrown with
  | failed _ _ hsame _ _ =>
      rw [hslabs, hpool] at hsame
      simp at hsame
  | added other _ _ hadded _ _ _ hafter =>
      rw [hslabs, hpool] at hadded
      obtain rfl : slab = other := by simpa using hadded
      exact hafter.holds

end

variable {T : ι → ItemType} [Fintype ι] [DecidableEq ι] [DecidableEq α]

namespace Estate

/-- What comes of adding a slab at any point of any run, in the order in which it is found out:

* the heap refuses room in the list, and the failure names the bytes for one slab more;
* the slots would take too many bytes: the failure names these, or the largest word, and there is no
  call but that for room;
* the allocator is asked for the slots, and what it answers is the failure;
* or there is a slab more, and its slots are in front of the free list in ascending order. -/
theorem growth_outcome (S : Supply α σ) (memory : Memory) (state : σ) (actions : List (Action T α))
    (hheap : ∀ bytes, Call.reserve bytes true ∈ ((start memory state).run S actions).calls →
      bytes ≤ Layout.maxSize SlabIndex.entryAlign)
    (i : ι) (account : Account (T i) α)
    (hfound : ((start memory state).run S actions).accounts i = some account)
    (capacity : Capacity) :
    let before := (start memory state).run S actions
    let served := account.serve S.recorded before.world (.grow capacity)
    let index := account.pool.index
    let refused := index.Refused S before.world.supply.state
    (refused →
      served.result = .error (.refused ⟨16 * (account.pool.numSlabs + 1), 8⟩) ∧
      served.world.supply.calls = .reserve (16 * index.nextReserved) false :: before.calls) ∧
    (¬ refused → 2 ^ 63 < (T i).size * capacity.val + (T i).align →
      served.result =
        .error (.refused ⟨min ((T i).size * capacity.val) (2 ^ 64 - 1), (T i).align⟩) ∧
      served.world.supply.calls = index.roomCalls ++ before.calls) ∧
    (¬ refused → (T i).size * capacity.val + (T i).align ≤ 2 ^ 63 →
      ∃ answer,
        served.world.supply.calls =
          .allocate account.pool.allocator ⟨(T i).size * capacity.val, (T i).align⟩ answer ::
            (index.roomCalls ++ before.calls) ∧
        (∀ stop, answer = .error stop → served.result = .error stop) ∧
        ∀ block, answer = .ok block →
          served.result = .ok .done ∧
          served.account.pool.index.slabs = index.slabs ++ [⟨block, capacity⟩] ∧
          ((start memory state).Lawful S actions → Honest served.world.supply.calls →
            ∃ free, account.pool.free.Holds before.world.memory free ∧
              served.account.pool.free.Holds served.world.memory
                ((⟨block, capacity⟩ : Slab (T i)).slots ++ free))) := by
  intro before served index refused
  have hsize : 0 < (T i).size * capacity.val := Nat.mul_pos (T i).size_pos capacity.property
  have hstart : Balanced (start memory state : Estate T α σ) := .start memory state
  have hresult : served.result =
      (account.pool.grow S.recorded capacity before.world).result.map fun () => .done := rfl
  refine ⟨?_, ?_, ?_⟩
  · intro hrefused
    obtain ⟨hstop, -, hcalls, -⟩ := Pool.grow_of_refused capacity hrefused
    have hhoused := (Housed.start memory state).run S actions i account hfound
    rw [Pool.indexFailure_eq hhoused hheap] at hstop
    exact ⟨by rw [hresult, hstop]; rfl, hcalls⟩
  · intro hrefused hlarge
    rw [← Layout.maxSize_lt_iff hsize] at hlarge
    obtain ⟨hstop, -, hcalls, -⟩ := Pool.grow_of_oversized hrefused hlarge
    exact ⟨by rw [hresult, hstop]; rfl, hcalls⟩
  · intro hrefused hfits
    rw [← Nat.not_lt, ← Layout.maxSize_lt_iff hsize, Nat.not_lt] at hfits
    obtain ⟨answer, hcalls, hfailed, hlent⟩ := Pool.grow_of_layout hrefused hfits
    refine ⟨answer, hcalls, ?_, ?_⟩
    · intro stop hstop
      rw [hresult, (hfailed stop hstop).1]
      rfl
    · intro block hblock
      obtain ⟨hdone, hindex, -⟩ := hlent block hblock
      have hslabs : served.account.pool.index.slabs = index.slabs ++ [⟨block, capacity⟩] := by
        rw [show served.account.pool.index = _ from hindex, SlabIndex.append,
          SlabIndex.slabs_roomy]
      refine ⟨by rw [hresult, hdone]; rfl, hslabs, ?_⟩
      intro hlawful hhonest
      have hbefore : Honest before.calls :=
        hhonest.of_suffix (account.suffix_serve S before.world (.grow capacity))
      have hcovered := (Covered.start memory state).run S hstart hlawful hbefore i account hfound
      have hbacked := ((hstart.run S actions).backed hfound).serve S before.world (.grow capacity)
      exact hcovered.holds_grow S (hbacked.spread hhonest) hslabs

/-- A pool of one slot, in a list with room for three slabs more. -/
def oneOfFour : List (Action (fun _ : Bool => Kind.pair.itemType) Collaborator) :=
  [.build true { allocator := {}, initial := some 1 }]

/-- One slot more than the largest slab has is refused by the pool, and so is a slab of which the
size is no word. A slab of two slots can be had. -/
theorem growth_outcome_of_oneOfFour :
    let before := (start {} {}).run Host.supply oneOfFour
    ∃ account, before.accounts true = some account ∧
      (account.serve Host.supply.recorded before.world (.grow ⟨2 ^ 59, by decide⟩)).result =
        .error (.refused ⟨2 ^ 63, 8⟩) ∧
      (account.serve Host.supply.recorded before.world (.grow ⟨2 ^ 60, by decide⟩)).result =
        .error (.refused ⟨2 ^ 64 - 1, 8⟩) ∧
      ∃ free, (account.serve Host.supply.recorded before.world (.grow 2)).account.pool.free.Holds
        (account.serve Host.supply.recorded before.world (.grow 2)).world.memory
        ((⟨4112, 2⟩ : Slab Kind.pair.itemType).slots ++ free) := by
  have hfound : (((start {} {}).run Host.supply oneOfFour).accounts true).isSome := rfl
  have hcalls : ((start {} {}).run Host.supply oneOfFour).calls =
      [.allocate {} ⟨16, 8⟩ (.ok 4096), .reserve 64 true] := rfl
  have hheap : ∀ bytes, Call.reserve bytes true ∈
      ((start {} {}).run Host.supply oneOfFour).calls →
      bytes ≤ Layout.maxSize SlabIndex.entryAlign := by
    intro bytes hbytes
    rw [hcalls] at hbytes
    obtain rfl : bytes = 64 := by simpa using hbytes
    decide
  have hnext : ∀ account ∈ ((start {} {}).run Host.supply oneOfFour).accounts true,
      ¬ account.pool.index.Refused Host.supply
        ((start {} {}).run Host.supply oneOfFour).world.supply.state ∧
      Honest (account.serve Host.supply.recorded
        ((start {} {}).run Host.supply oneOfFour).world (.grow 2)).world.supply.calls := by
    decide +kernel
  obtain ⟨hroom, hhonest⟩ := hnext _ (Option.some_get hfound).symm
  have houtcome := growth_outcome Host.supply {} {} oneOfFour hheap true _
    (Option.some_get hfound).symm
  obtain ⟨-, hlarge, -⟩ := houtcome ⟨2 ^ 59, by decide⟩
  obtain ⟨-, hlarger, -⟩ := houtcome ⟨2 ^ 60, by decide⟩
  have hsize : ∀ size asked, size = asked →
      (.error (.refused ⟨size, 8⟩) : Except Stop (Outcome Kind.pair.itemType Nat)) =
        .error (.refused ⟨asked, 8⟩) := by
    rintro size _ rfl
    rfl
  obtain ⟨-, -, hfits⟩ := houtcome 2
  obtain ⟨answer, hasked, -, hlent⟩ := hfits hroom (by decide)
  obtain rfl : answer = .ok 4112 := by cases hasked; rfl
  obtain ⟨-, -, hholds⟩ := hlent 4112 rfl
  obtain ⟨free, -, hafter⟩ := hholds (by decide) hhonest
  refine ⟨_, (Option.some_get hfound).symm, ?_, ?_, free, hafter⟩
  · exact (hlarge hroom (by decide)).1.trans (hsize _ _ (by decide +kernel))
  · exact (hlarger hroom (by decide)).1.trans (hsize _ _ (by decide +kernel))

end Estate

end SlabPool
