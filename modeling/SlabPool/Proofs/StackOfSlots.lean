import SlabPool.Proofs.Slots
import SlabPool.Session.Kind

/-!
A free list by itself is a stack of slots.

A free list needs no pool. Here it is used over a row of slots that somebody else provides, with no
more than what its operations ask for: a slot is not put on the list while it is on it. Whoever
provides the slots may write into them at any time between two uses, as long as the links of slots
that are on the list stay as they are. What the slots hold at the beginning is arbitrary, and so is
what slots hold that came off the list or were forgotten with it.

`FreeList.Use` is one use of the list, and `Linked.serve` carries it out with links in memory.
`Use.onStack` says what it does to a plain list of slot numbers. The two give the same answers over
any run of uses. One step is `Linked.serve_eq`, and the run is an induction on it. A use writes into
the links of the slots that it puts on the list, and nowhere else (`Linked.read_serve_of_ne`).

Main statement: `FreeList.stack_of_slots`.
-/

namespace SlabPool

/-! ### Slots in a row -/

namespace ItemType

variable (T : ItemType)

/-- The address of a slot in a row of slots of which the first lies at `first`. The row is as long
as anyone uses it. -/
def address (first slot : Nat) : Nat :=
  first + slot * T.size

theorem address_ne_zero {first : Nat} (hfirst : 0 < first) (slot : Nat) :
    T.address first slot ≠ 0 := by
  unfold address
  omega

theorem address_add (first slot k : Nat) :
    T.address first (slot + k) = T.address first slot + k * T.size := by
  rw [address, address, Nat.add_mul, Nat.add_assoc]

/-- Different slots keep their links in different words. -/
theorem address_cell_ne (first : Nat) {slot other : Nat} (h : slot ≠ other) :
    T.address first slot / 8 ≠ T.address first other / 8 := by
  have hapart : ∀ {low high : Nat}, low < high →
      T.Apart (T.address first low) (T.address first high) := by
    intro low high hlt
    have hle : (low + 1) * T.size ≤ high * T.size := Nat.mul_le_mul_right _ hlt
    rw [Nat.succ_mul] at hle
    left
    unfold address
    omega
  rcases Nat.lt_or_gt_of_ne h with hlt | hlt
  · exact (hapart hlt).cell_ne
  · exact (hapart hlt).cell_ne.symm

/-- Slots with numbers in a row lie in a row. -/
theorem row_address (first slot count : Nat) :
    FreeList.row T.size (T.address first slot) count =
      (List.range' slot count).map (T.address first) := by
  rw [FreeList.row_eq_map, List.range'_eq_map_range, List.map_map]
  exact List.map_congr_left fun k _ => (T.address_add first slot k).symm

end ItemType

namespace FreeList

/-! ### Uses of a free list -/

/-- One use of a free list over a row of slots, which are named by their numbers, or a word that the
owner of the slots writes. -/
inductive Use where
  | push (slot : Nat)
  | pushRow (slot : Nat) (count : Capacity)
  | pop
  | clear
  | isEmpty
  | traverse (limit : Nat)
  | write (address word : Nat)

/-- What comes of a use. -/
inductive Answer where
  | done
  | slot (slot : Option Nat)
  | truth (b : Bool)
  | traversed (visited : List Nat) (ended : Bool)
  deriving DecidableEq

/-- The same answer under other names. -/
def Answer.map (rename : Nat → Nat) : Answer → Answer
  | done => done
  | slot name => slot (name.map rename)
  | truth b => truth b
  | traversed visited ended => traversed (visited.map rename) ended

namespace Use

/-- What a use answers if the slots are a plain list, and what becomes of that list. -/
def onStack (items : List Nat) : Use → Answer × List Nat
  | push slot => (.done, slot :: items)
  | pushRow slot count => (.done, List.range' slot count.val ++ items)
  | pop => (.slot items.head?, items.tail)
  | clear => (.done, [])
  | isEmpty => (.truth items.isEmpty, items)
  | traverse limit => (.traversed (items.take limit) (decide (items.length ≤ limit)), items)
  | write _ _ => (.done, items)

/-- No slot is put on the list that is on it, and the owner of the slots keeps off the links of the
slots on the list. -/
def Respects (T : ItemType) (first : Nat) (items : List Nat) : Use → Prop
  | push slot => slot ∉ items
  | pushRow slot count => ∀ k < count.val, slot + k ∉ items
  | write address _ => ∀ slot ∈ items, address / 8 ≠ T.address first slot / 8
  | pop | clear | isEmpty | traverse _ => True

instance (T : ItemType) (first : Nat) (items : List Nat) (use : Use) :
    Decidable (use.Respects T first items) :=
  match use with
  | push _ => inferInstanceAs (Decidable (_ ∉ _))
  | pushRow _ _ => inferInstanceAs (Decidable (∀ _ < _, _))
  | write _ _ => inferInstanceAs (Decidable (∀ _ ∈ _, _))
  | pop | clear | isEmpty | traverse _ => isTrue trivial

/-- Where a use writes: into the links of the slots that it puts on the list, or where the owner of
the slots says. -/
def written (T : ItemType) (first : Nat) : Use → List Nat
  | push slot => [T.address first slot]
  | pushRow slot count => (List.range' slot count.val).map (T.address first)
  | write address _ => [address]
  | pop | clear | isEmpty | traverse _ => []

/-- The answers to uses in a row. -/
def onStackAll : List Nat → List Use → List Answer
  | _, [] => []
  | items, use :: uses => (use.onStack items).1 :: onStackAll (use.onStack items).2 uses

/-- The contract of `Respects`, kept at every use of a run. -/
def RespectAll (T : ItemType) (first : Nat) : List Nat → List Use → Prop
  | _, [] => True
  | items, use :: uses =>
    use.Respects T first items ∧ RespectAll T first (use.onStack items).2 uses

instance decidableRespectAll (T : ItemType) (first : Nat) :
    (items : List Nat) → (uses : List Use) → Decidable (RespectAll T first items uses)
  | _, [] => isTrue trivial
  | items, use :: uses =>
    have := decidableRespectAll T first (use.onStack items).2 uses
    inferInstanceAs (Decidable (_ ∧ _))

end Use

/-- A free list, and the memory with the links of its slots. -/
structure Linked where
  list : FreeList := {}
  memory : Memory

namespace Linked

variable {T : ItemType} {first : Nat} {linked : Linked} {items : List Nat} {use : Use}

/-- Carries a use out. Slots are answered by their addresses. -/
def serve (T : ItemType) (first : Nat) (linked : Linked) : Use → Except Fault Answer × Linked
  | .push slot =>
    let (list, memory) := linked.list.push (T.address first slot) linked.memory
    (.ok .done, { list, memory })
  | .pushRow slot count =>
    match linked.list.pushRow (T.address first slot) T.size count.val linked.memory with
    | .error fault => (.error fault, linked)
    | .ok (list, memory) => (.ok .done, { list, memory })
  | .pop =>
    match linked.list.pop? linked.memory with
    | none => (.ok (.slot none), linked)
    | some (item, list) => (.ok (.slot (some item)), { linked with list })
  | .clear => (.ok .done, { linked with list := {} })
  | .isEmpty => (.ok (.truth linked.list.isEmpty), linked)
  | .traverse limit =>
    let note := fun (visited : List Nat) (item : Nat) =>
      (.ok (item :: visited) : Except Fault (List Nat))
    match linked.list.traverse linked.memory note limit [] with
    | .error fault => (.error fault, linked)
    | .ok (visited, ended) => (.ok (.traversed visited.reverse ended), linked)
  | .write address word => (.ok .done, { linked with memory := linked.memory.write address word })

def serveAll (T : ItemType) (first : Nat) : Linked → List Use → List (Except Fault Answer)
  | _, [] => []
  | linked, use :: uses =>
    (linked.serve T first use).1 :: (linked.serve T first use).2.serveAll T first uses

/-- The slots on the list, the next one to come off first. -/
def Stacks (T : ItemType) (first : Nat) (linked : Linked) (items : List Nat) : Prop :=
  linked.list.Holds linked.memory (items.map (T.address first))

/-! ### One use -/

theorem serve_push (hfirst : 0 < first) (h : linked.Stacks T first items) {slot : Nat}
    (hnew : slot ∉ items) :
    (linked.serve T first (.push slot)).2.Stacks T first (slot :: items) := by
  refine Holds.push h ?_ ?_
  · exact List.forall_mem_map.mpr fun other _ => T.address_ne_zero hfirst other
  · exact List.forall_mem_map.mpr fun other hother =>
      T.address_cell_ne first fun heq => hnew (heq ▸ hother)

theorem serve_pushRow (hfirst : 0 < first) (h : linked.Stacks T first items) {slot : Nat}
    {count : Capacity} (hnew : ∀ k < count.val, slot + k ∉ items) :
    (linked.serve T first (.pushRow slot count)).1 = .ok .done ∧
      (linked.serve T first (.pushRow slot count)).2.Stacks T first
        (List.range' slot count.val ++ items) := by
  obtain ⟨longer, after, hpushed, hholds⟩ :=
    Holds.pushRow h T.eight_le_size count.property
      (List.forall_mem_map.mpr fun other _ => T.address_ne_zero hfirst other)
      fun k hk => List.forall_mem_map.mpr fun other hother => by
        rw [← T.address_add]
        exact T.address_cell_ne first fun heq => hnew k hk (heq ▸ hother)
  rw [T.row_address, ← List.map_append] at hholds
  simp only [serve, hpushed]
  exact ⟨trivial, hholds⟩

theorem serve_traverse (h : linked.Stacks T first items) (limit : Nat) :
    linked.serve T first (.traverse limit) =
      (.ok (.traversed ((items.take limit).map (T.address first))
        (decide (items.length ≤ limit))), linked) := by
  obtain ⟨hpath, hends⟩ := Memory.Chain.path_eq h limit
  have hwalk := @traverseFrom_eq_foldl_path (List Nat) Fault linked.memory
    (fun visited item => item :: visited) limit linked.list.head []
  rw [hpath, hends, List.foldl_flip_cons_eq_append, List.map_id', List.append_nil,
    List.length_map] at hwalk
  simp only [serve, FreeList.traverse, hwalk, List.reverse_reverse, List.map_take]

theorem serve_write (h : linked.Stacks T first items) {address : Nat}
    (hoff : ∀ slot ∈ items, address / 8 ≠ T.address first slot / 8) (word : Nat) :
    (linked.serve T first (.write address word)).2.Stacks T first items :=
  @Memory.Chain.setLink _ _ (some word) _ address h (List.forall_mem_map.mpr hoff)

theorem serve_eq (hfirst : 0 < first) (h : linked.Stacks T first items)
    (hrespects : use.Respects T first items) :
    (linked.serve T first use).1 = .ok ((use.onStack items).1.map (T.address first)) ∧
      (linked.serve T first use).2.Stacks T first (use.onStack items).2 := by
  cases use with
  | push slot => exact ⟨rfl, serve_push hfirst h hrespects⟩
  | pushRow slot count => exact serve_pushRow hfirst h hrespects
  | pop =>
      cases items with
      | nil =>
          have hpop : linked.list.pop? linked.memory = none := by
            rw [pop?_eq_none_iff, isEmpty_iff]
            exact h
          simp only [serve, hpop]
          exact ⟨rfl, h⟩
      | cons slot items =>
          obtain ⟨rest, hpop, hrest⟩ := Holds.pop? h
          simp only [serve, hpop]
          exact ⟨rfl, hrest⟩
  | clear => exact ⟨rfl, holds_empty linked.memory⟩
  | isEmpty =>
      refine ⟨?_, h⟩
      rw [serve, Holds.isEmpty h, List.isEmpty_map]
      rfl
  | traverse limit =>
      rw [serve_traverse h limit]
      exact ⟨rfl, h⟩
  | write address word => exact ⟨rfl, serve_write h hrespects word⟩

/-- Words that a use does not write are as before, whatever the links are. -/
theorem read_serve_of_ne {address : Nat}
    (h : ∀ word ∈ use.written T first, address / 8 ≠ word / 8) :
    (linked.serve T first use).2.memory.read address = linked.memory.read address := by
  cases use with
  | push slot => exact Memory.read_write_of_ne (h _ (List.mem_singleton_self _)).symm _ _
  | pushRow slot count =>
      have hrow : ∀ k < count.val, (T.address first slot + k * T.size) / 8 ≠ address / 8 := by
        intro k hk
        rw [← T.address_add]
        exact (h _ (List.mem_map_of_mem (List.mem_range'_1.mpr ⟨by omega, by omega⟩))).symm
      have hpos := count.property
      have hpushed := @pushRow_of_pos linked.list (T.address first slot) T.size count.val
        linked.memory hpos
      simp only [serve, hpushed]
      rw [Memory.setLink, Memory.read_write_of_ne (hrow _ (by omega))]
      exact read_linkRow_of_ne fun k hk => hrow k (by omega)
  | pop =>
      simp only [serve]
      split
      · rfl
      · rfl
  | clear | isEmpty => rfl
  | traverse limit =>
      simp only [serve]
      split
      · rfl
      · rfl
  | write other word => exact Memory.read_write_of_ne (h _ (List.mem_singleton_self _)).symm _ _

/-! ### Runs -/

theorem serveAll_eq (hfirst : 0 < first) (h : linked.Stacks T first items) {uses : List Use}
    (hrespect : Use.RespectAll T first items uses) :
    linked.serveAll T first uses =
      (Use.onStackAll items uses).map fun answer => .ok (answer.map (T.address first)) := by
  induction uses generalizing linked items with
  | nil => rfl
  | cons use uses ih =>
      obtain ⟨hanswer, hafter⟩ := serve_eq hfirst h hrespect.1
      rw [serveAll, Use.onStackAll, List.map_cons, hanswer, ih hafter hrespect.2]

end Linked

/-- A free list in any memory answers a series of uses as a stack of slot numbers does, if nobody
puts a slot on the list twice or writes into the links of slots that are on it. A use writes into
the links of the slots that it puts on the list, and nowhere else. -/
theorem stack_of_slots (T : ItemType) (first : Nat) (hfirst : 0 < first) (memory : Memory)
    (uses : List Use) (hrespect : Use.RespectAll T first [] uses) :
    Linked.serveAll T first { memory } uses =
      (Use.onStackAll [] uses).map (fun answer => .ok (answer.map (T.address first))) ∧
    ∀ (linked : Linked) (use : Use) (address : Nat),
      (∀ word ∈ use.written T first, address / 8 ≠ word / 8) →
      (linked.serve T first use).2.memory.read address = linked.memory.read address :=
  have hempty : Linked.Stacks T first { memory } [] := holds_empty memory
  ⟨Linked.serveAll_eq hfirst hempty hrespect, fun _ _ _ hoff => Linked.read_serve_of_ne hoff⟩

/-- A run of three slots, of which the first comes off, is written over and put back on; the list is
cleared, and the slot in the middle is put on it again while its old link still leads to the last
one. -/
def rowReused : List Use :=
  [.pushRow 0 ⟨3, Nat.succ_pos 2⟩, .pop, .write 4096 4112, .push 0, .traverse 2, .clear, .pop,
    .push 1, .traverse 1, .pop, .isEmpty]

theorem stack_of_rowReused :
    Use.RespectAll Kind.pair.itemType 4096 [] rowReused ∧
      Linked.serveAll Kind.pair.itemType 4096 { memory := Memory.setLink {} 4128 (some 4096) }
        rowReused =
        [.ok .done, .ok (.slot (some 4096)), .ok .done, .ok .done,
          .ok (.traversed [4096, 4112] false), .ok .done, .ok (.slot none), .ok .done,
          .ok (.traversed [4112] true), .ok (.slot (some 4112)), .ok (.truth true)] := by
  have hrespect : Use.RespectAll Kind.pair.itemType 4096 [] rowReused := by decide
  exact ⟨hrespect, (stack_of_slots Kind.pair.itemType 4096 (by decide) _ rowReused hrespect).1⟩

end FreeList

end SlabPool
