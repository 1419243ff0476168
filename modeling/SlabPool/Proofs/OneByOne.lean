import SlabPool.Proofs.Slots

/-!
Runs of items that are put on a free list as a whole.

A run is linked in one pass from its first item to its last. Each link but the last is written
before it is known where the list began; only then is the last item linked to the former head. Put
on the list one by one, the same items would go there from the last to the first, and each of them
would be linked to the head of its time. Every link is written once either way, to the same place,
and links of different items are different words. So the order makes no difference: the two ways end
with the same list and the same memory, word for word. Nothing is assumed of the former head or of
what memory holds. The list may lead through items of the run, and need not end at all.

Main statement: `FreeList.pushRow_eq_pushAll`.
-/

namespace SlabPool

/-! ### Writes in another order -/

namespace Memory

theorem write_comm {address other : Nat} (h : address / 8 ≠ other / 8) (memory : Memory)
    (word second : Nat) :
    (memory.write address word).write other second =
      (memory.write other second).write address word := by
  refine congrArg Memory.mk (Std.ExtTreeMap.ext_getElem? fun cell => ?_)
  simp only [write, Std.ExtTreeMap.getElem?_insert, Nat.compare_eq_eq]
  by_cases haddress : address / 8 = cell
  · rw [if_pos haddress, if_neg fun hother => h (haddress.trans hother.symm), if_pos haddress]
  · rw [if_neg haddress, if_neg haddress]

theorem setLink_comm {address other : Nat} (h : address / 8 ≠ other / 8) (memory : Memory)
    (next following : Option Nat) :
    (memory.setLink address next).setLink other following =
      (memory.setLink other following).setLink address next :=
  write_comm h memory _ _

end Memory

namespace FreeList

/-- A link outside a row can be set before the row is linked or afterwards. -/
theorem linkRow_setLink {stride item address count : Nat}
    (h : ∀ k < count, (item + k * stride) / 8 ≠ address / 8) (memory : Memory)
    (next : Option Nat) :
    linkRow stride (memory.setLink address next) item count =
      (linkRow stride memory item count).setLink address next := by
  induction count generalizing memory item with
  | zero => rfl
  | succ count ih =>
      have hfirst : address / 8 ≠ item / 8 := by
        simpa using (h 0 count.succ_pos).symm
      rw [linkRow, linkRow, Memory.setLink_comm hfirst]
      apply ih
      intro k hk
      have hnext := h (k + 1) (Nat.succ_lt_succ hk)
      rwa [Nat.succ_mul, Nat.add_comm _ stride, ← Nat.add_assoc] at hnext

/-! ### Items put on a list one after the other -/

/-- Puts items on the list, the first of them first. -/
def pushAll (list : FreeList) (memory : Memory) (items : List Nat) : FreeList × Memory :=
  items.foldl (fun after item => after.1.push item after.2) (list, memory)

theorem pushAll_concat (list : FreeList) (memory : Memory) (items : List Nat) (item : Nat) :
    list.pushAll memory (items ++ [item]) =
      (list.pushAll memory items).1.push item (list.pushAll memory items).2 :=
  List.foldl_concat ..

/-- The items of a row, from the last one to the first, end up linked like the row as a whole. -/
theorem pushAll_reverse_row {stride : Nat} (hstride : 8 ≤ stride) (list : FreeList)
    (memory : Memory) (first last : Nat) :
    list.pushAll memory (row stride first (last + 1)).reverse =
      (⟨some first⟩,
        (linkRow stride memory first last).setLink (first + last * stride) list.head) := by
  induction last generalizing first with
  | zero => simp [row, pushAll, push, linkRow]
  | succ last ih =>
      have hfar : ∀ k, (first + stride + k * stride) / 8 ≠ first / 8 := by
        intro k
        omega
      have hshift : first + (last + 1) * stride = first + stride + last * stride := by
        rw [Nat.succ_mul, Nat.add_comm _ stride, Nat.add_assoc]
      -- the first item is the last to be put on the list, and the first to be linked in the row
      rw [row, List.reverse_cons, pushAll_concat, ih (first + stride), push, linkRow,
        linkRow_setLink fun k _ => hfar k, hshift, Memory.setLink_comm (hfar last)]

/-- A row of slots that is put on the list as a whole leaves the list and the memory that are left
if its slots are put there one by one, the last one first. -/
theorem pushRow_eq_pushAll (T : ItemType) (list : FreeList) (memory : Memory) (first : Nat)
    (count : Capacity) :
    list.pushRow first T.size count.val memory =
      .ok (list.pushAll memory
        ((List.range count.val).reverse.map fun k => first + k * T.size)) := by
  obtain ⟨last, hlast⟩ : ∃ last, count.val = last + 1 :=
    Nat.exists_eq_succ_of_ne_zero count.property.ne'
  rw [List.map_reverse, ← row_eq_map, hlast, pushAll_reverse_row T.eight_le_size,
    pushRow_of_pos last.succ_pos]
  rfl

end FreeList

end SlabPool
