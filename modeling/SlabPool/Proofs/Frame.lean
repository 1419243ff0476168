import SlabPool.Proofs.Slots

/-!
What an operation leaves as it was in memory.

Links and values are written into items, and nothing else is written at all. `T.WritesOnly items`
says of a memory before and a memory after that they agree on every byte outside the given items;
each kind of write has its lemma here. `T.Keeps item` says that the bytes of one item are the same
before and after, which is what the links of a free list and the value in an item depend on
(`Keeps.holds`, `Keeps.load_eq`).
-/

namespace SlabPool

namespace ItemType

variable (T : ItemType)

/-- Every byte outside the items is the same in both memories. -/
def WritesOnly (items : List Nat) (before after : Memory) : Prop :=
  ∀ address, (∀ item ∈ items, ¬ T.Covers item address) → after.read address = before.read address

/-- Every byte of the item is the same in both memories. -/
def Keeps (item : Nat) (before after : Memory) : Prop :=
  ∀ address, T.Covers item address → after.read address = before.read address

variable {T}

theorem Keeps.refl (item : Nat) (memory : Memory) : T.Keeps item memory memory :=
  fun _ _ => rfl

theorem Keeps.trans {item : Nat} {before middle after : Memory} (h : T.Keeps item before middle)
    (h' : T.Keeps item middle after) : T.Keeps item before after :=
  fun address hcovers => (h' address hcovers).trans (h address hcovers)

theorem Keeps.symm {item : Nat} {before after : Memory} (h : T.Keeps item before after) :
    T.Keeps item after before :=
  fun address hcovers => (h address hcovers).symm

/-- The link in an item is the same if its bytes are. -/
theorem Keeps.link_eq {item : Nat} {before after : Memory} (h : T.Keeps item before after) :
    after.link item = before.link item := by
  rw [Memory.link, Memory.link, h item (T.covers_self item)]

theorem readRow_congr {before after : Memory} {address count : Nat}
    (h : ∀ k < count, after.read (address + 8 * k) = before.read (address + 8 * k)) :
    after.readRow address count = before.readRow address count := by
  induction count generalizing address with
  | zero => rfl
  | succ count ih =>
      have hhead : after.read address = before.read address := by simpa using h 0 (by omega)
      have htail : after.readRow (address + 8) count = before.readRow (address + 8) count := by
        apply ih
        intro k hk
        have := h (k + 1) (by omega)
        rwa [show address + 8 * (k + 1) = address + 8 + 8 * k by omega] at this
      rw [Memory.readRow, Memory.readRow, hhead, htail]

/-- The value in an item is the same if its bytes are. -/
theorem Keeps.load_eq {item : Nat} {before after : Memory} (h : T.Keeps item before after) :
    T.load after item = T.load before item := by
  refine Subtype.ext (readRow_congr ?_)
  intro k hk
  have hwidth := T.width_le
  exact h _ ⟨by omega, by omega⟩

/-- A free list is the same if the bytes of the items on it are. -/
theorem Keeps.holds {list : FreeList} {before after : Memory} {items : List Nat}
    (h : ∀ item ∈ items, T.Keeps item before after) (hholds : list.Holds before items) :
    list.Holds after items :=
  Memory.Chain.congr hholds fun item hitem => (h item hitem).link_eq

/-- A word that is written outside an item leaves the item alone. -/
theorem Keeps.write {item address : Nat} (haligned : 8 ∣ item) (h : ¬ T.Covers item address)
    (memory : Memory) (word : Nat) : T.Keeps item memory (memory.write address word) := by
  rintro byte ⟨hlow, hhigh⟩
  have hsize := T.eight_dvd_size
  apply Memory.read_write_of_ne
  simp only [Covers] at h
  omega

/-! ### Writes -/

namespace WritesOnly

theorem refl (items : List Nat) (memory : Memory) : T.WritesOnly items memory memory :=
  fun _ _ => rfl

theorem trans {items : List Nat} {before middle after : Memory}
    (h : T.WritesOnly items before middle) (h' : T.WritesOnly items middle after) :
    T.WritesOnly items before after :=
  fun address hoff => (h' address hoff).trans (h address hoff)

theorem mono {items more : List Nat} {before after : Memory}
    (h : T.WritesOnly items before after) (hsubset : items ⊆ more) :
    T.WritesOnly more before after :=
  fun address hoff => h address fun item hitem => hoff item (hsubset hitem)

/-- Items apart from those written keep their bytes. -/
theorem keeps {items : List Nat} {before after : Memory} {item : Nat}
    (h : T.WritesOnly items before after) (hapart : ∀ other ∈ items, T.Apart item other) :
    T.Keeps item before after := by
  intro address hcovers
  apply h address
  intro other hother
  exact (hapart other hother).not_covers hcovers

theorem keeps_of_apart {before after : Memory} {item written : Nat}
    (h : T.WritesOnly [written] before after) (hapart : T.Apart item written) :
    T.Keeps item before after := by
  apply h.keeps
  intro other hother
  rwa [List.mem_singleton.mp hother]

theorem setLink {item : Nat} (haligned : 8 ∣ item) (memory : Memory) (next : Option Nat) :
    T.WritesOnly [item] memory (memory.setLink item next) := by
  intro address hoff
  have hcell : item / 8 ≠ address / 8 := by
    intro heq
    have height := T.eight_le_size
    have hnot := hoff item (by simp)
    simp only [Covers] at hnot
    omega
  exact Memory.read_write_of_ne hcell memory _

theorem linkRow {first : Nat} (haligned : 8 ∣ first) (memory : Memory) (count : Nat) :
    T.WritesOnly (FreeList.row T.size first count) memory
      (FreeList.linkRow T.size memory first count) := by
  induction count generalizing memory first with
  | zero => exact refl _ _
  | succ count ih =>
      have hhead : T.WritesOnly (FreeList.row T.size first (count + 1)) memory
          (memory.setLink first (some (first + T.size))) :=
        (setLink haligned memory _).mono (by simp [FreeList.row])
      have htail := ih ((Nat.dvd_add_right haligned).mpr T.eight_dvd_size)
        (memory.setLink first (some (first + T.size)))
      exact hhead.trans (htail.mono (by simp [FreeList.row]))

/-- Putting a run on a free list writes into the items of the run alone. -/
theorem pushRow {list longer : FreeList} {first count : Nat} {before after : Memory}
    (haligned : 8 ∣ first) (hcount : 0 < count)
    (h : list.pushRow first T.size count before = .ok (longer, after)) :
    T.WritesOnly (FreeList.row T.size first count) before after := by
  rw [FreeList.pushRow_of_pos hcount] at h
  simp only [Except.ok.injEq, Prod.mk.injEq] at h
  obtain ⟨-, rfl⟩ := h
  have hlinks : T.WritesOnly (FreeList.row T.size first count) before
      (FreeList.linkRow T.size before first (count - 1)) := by
    apply (linkRow haligned before (count - 1)).mono
    intro item hitem
    obtain ⟨k, hk, rfl⟩ := FreeList.mem_row.mp hitem
    exact FreeList.mem_row.mpr ⟨k, by omega, rfl⟩
  -- the last link is written by itself, since it leads out of the run
  have hlast : 8 ∣ first + (count - 1) * T.size :=
    (Nat.dvd_add_right haligned).mpr (Dvd.dvd.mul_left T.eight_dvd_size _)
  refine hlinks.trans ((setLink hlast _ _).mono ?_)
  intro item hitem
  rw [List.mem_singleton.mp hitem]
  exact FreeList.mem_row.mpr ⟨count - 1, by omega, rfl⟩

/-- Words written within an item leave the other bytes alone. -/
theorem writeRow {item offset : Nat} {words : List Nat} (haligned : 8 ∣ item)
    (hoffset : 8 ∣ offset) (hfits : offset + 8 * words.length ≤ T.size) (memory : Memory) :
    T.WritesOnly [item] memory (memory.writeRow (item + offset) words) := by
  intro address hoff
  apply Memory.read_writeRow_of_outside
  have hnot := hoff item (by simp)
  simp only [Covers] at hnot
  omega

theorem store {item : Nat} (haligned : 8 ∣ item) (memory : Memory) (value : T.Value) :
    T.WritesOnly [item] memory (ItemType.store memory item value) := by
  have hwidth := T.width_le
  have hlength := value.property
  exact writeRow haligned (Nat.dvd_zero 8) (by omega) memory

end WritesOnly

end ItemType

end SlabPool
