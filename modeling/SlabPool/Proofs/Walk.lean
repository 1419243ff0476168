import SlabPool.Proofs.DoubleRelease

/-!
Walks along links that may lead anywhere.

A walk does not remember where it has been, and the links need not end: they can run round in a
ring, whether the walk begins on the ring or comes upon it later. What ends a walk is that it counts
its visits, and looks at the count before it visits the next item.

The way along the links is the sequence of entries `memory.next^[k] entry`, which is defined for all
links whatever, and after its end goes on with nothing. `Memory.path` and `Memory.endsWithin` are
described by that sequence here. `FreeList.Walk` is a walk taken step by step, with the count of
visits kept as a word that could overflow. It never does, because a visit is only counted below the
limit (`Walk.after_eq`).

Main statement: `FreeList.traverse_follows_links`.
-/

namespace SlabPool

/-! ### Ways along the links -/

namespace Memory

variable {memory : Memory} {entry : Option Nat}

/-- After its end, a way has no entry any more. -/
theorem iterate_next_of_le {steps further : Nat} (hend : memory.next^[steps] entry = none)
    (hle : steps ≤ further) : memory.next^[further] entry = none := by
  obtain ⟨rest, rfl⟩ := Nat.exists_eq_add_of_le' hle
  rw [Function.iterate_add_apply, hend, iterate_next_none]

/-- A path is the sequence of the entries, up to the limit. -/
theorem getElem?_path (memory : Memory) (limit : Nat) (entry : Option Nat) (k : Nat) :
    (memory.path limit entry)[k]? = if k < limit then memory.next^[k] entry else none := by
  induction limit generalizing entry k with
  | zero => cases entry <;> simp [path]
  | succ limit ih =>
      cases entry with
      | none => simp [path, iterate_next_none]
      | some item =>
          cases k with
          | zero => simp [path]
          | succ k =>
              rw [path, List.getElem?_cons_succ, ih, Function.iterate_succ_apply, next_some]
              simp only [Nat.succ_lt_succ_iff]

theorem endsWithin_iff {limit : Nat} :
    memory.endsWithin limit entry = true ↔ ∃ k ≤ limit, memory.next^[k] entry = none := by
  rw [endsWithin_eq_isNone, Option.isNone_iff_eq_none]
  constructor
  · exact fun hend => ⟨limit, Nat.le_refl limit, hend⟩
  · rintro ⟨k, hk, hend⟩
    exact iterate_next_of_le hend hk

/-- A path with a lower limit is the beginning of the one with a higher limit. -/
theorem path_eq_take {limit larger : Nat} (hle : limit ≤ larger) :
    memory.path limit entry = (memory.path larger entry).take limit := by
  apply List.ext_getElem?
  intro k
  rw [List.getElem?_take, getElem?_path, getElem?_path]
  by_cases hk : k < limit
  · rw [if_pos hk, if_pos hk, if_pos (by omega)]
  · rw [if_neg hk, if_neg hk]

/-- Beyond the end of a way there is nothing to be found with a higher limit. -/
theorem path_eq_of_endsWithin {limit larger : Nat} (hle : limit ≤ larger)
    (hends : memory.endsWithin limit entry = true) :
    memory.path larger entry = memory.path limit entry := by
  obtain ⟨last, hlast, hend⟩ := endsWithin_iff.mp hends
  apply List.ext_getElem?
  intro k
  rw [getElem?_path, getElem?_path]
  by_cases hk : k < limit
  · rw [if_pos hk, if_pos (by omega)]
  · rw [if_neg hk, iterate_next_of_le hend (by omega), ite_self]

theorem length_path_of_endless {limit : Nat} (h : memory.endsWithin limit entry = false) :
    (memory.path limit entry).length = limit := by
  have hlonger := length_path_succ_iff.mpr h
  rw [path_eq_take (Nat.le_succ limit), List.length_take, hlonger]
  omega

/-- A way that comes to an entry a second time never ends. -/
theorem endsWithin_of_return {first second : Nat} (hlt : first < second)
    (hreturn : memory.next^[first] entry = memory.next^[second] entry)
    (hentry : memory.next^[first] entry ≠ none) (limit : Nat) :
    memory.endsWithin limit entry = false := by
  have hround : Function.IsPeriodicPt memory.next (second - first) (memory.next^[first] entry) := by
    rw [Function.IsPeriodicPt, Function.IsFixedPt, ← Function.iterate_add_apply,
      Nat.sub_add_cancel hlt.le, hreturn]
  -- once round for every item below the limit, it is at that entry again
  have hagain : memory.next^[limit * (second - first)] (memory.next^[first] entry) =
      memory.next^[first] entry := hround.const_mul limit
  have hpos : limit * 1 ≤ limit * (second - first) := Nat.mul_le_mul_left limit (by omega)
  rw [← Bool.not_eq_true, endsWithin_iff]
  rintro ⟨k, hk, hend⟩
  apply hentry
  rw [← hagain, ← Function.iterate_add_apply]
  exact iterate_next_of_le hend (by omega)

end Memory

/-! ### Walks step by step -/

namespace FreeList

variable {β : Type}

/-- A walk between two visits: the entry to be looked at next, the number of items visited so far,
and what the visits have made of the start. -/
structure Walk (β : Type) where
  entry : Option Nat
  visited : Nat := 0
  seen : β

namespace Walk

/-- How a walk stands after some steps. -/
inductive Standing (β : Type) where
  | underWay (walk : Walk β)
  | over (seen : β) (ended : Bool)
  /-- The count of visits left the words. -/
  | miscounted

def step (memory : Memory) (visit : β → Nat → β) (limit : Nat) (walk : Walk β) : Standing β :=
  match walk.entry with
  | none => .over walk.seen true
  | some item =>
    if walk.visited = limit then
      .over walk.seen false
    else
      match Word.checkedAdd walk.visited 1 with
      | none => .miscounted
      | some visited => .underWay ⟨memory.link item, visited, visit walk.seen item⟩

/-- The walk after so many steps, if it was not over before. -/
def after (memory : Memory) (visit : β → Nat → β) (limit : Nat) : Walk β → Nat → Standing β
  | walk, 0 => .underWay walk
  | walk, steps + 1 =>
    match walk.step memory visit limit with
    | .underWay next => next.after memory visit limit steps
    | standing => standing

/-- A walk with so many visits left is over after its last visit and one step more, and the count of
its visits is the number of its steps. -/
theorem after_eq (memory : Memory) (visit : β → Nat → β) {limit left : Nat} (walk : Walk β)
    (hlimit : limit < Word.modulus) (hleft : walk.visited + left = limit) (steps : Nat) :
    walk.after memory visit limit steps =
      if steps ≤ (memory.path left walk.entry).length then
        .underWay ⟨memory.next^[steps] walk.entry, walk.visited + steps,
          ((memory.path left walk.entry).take steps).foldl visit walk.seen⟩
      else
        .over ((memory.path left walk.entry).foldl visit walk.seen)
          (memory.endsWithin left walk.entry) := by
  induction steps generalizing walk left with
  | zero => rfl
  | succ steps ih =>
      obtain ⟨entry, visited, seen⟩ := walk
      replace hleft : visited + left = limit := hleft
      cases entry with
      | none => simp [after, step, Memory.path, Memory.endsWithin]
      | some item =>
          cases left with
          | zero =>
              obtain rfl : visited = limit := hleft
              simp [after, step, Memory.path, Memory.endsWithin]
          | succ left =>
              have hne : visited ≠ limit := by omega
              -- below the limit there is always room for one visit more in the count
              have hcount : Word.checkedAdd visited 1 = some (visited + 1) := by
                rw [Word.checkedAdd_eq_some_iff]
                omega
              have hrest := ih ⟨memory.link item, visited + 1, visit seen item⟩
                (show visited + 1 + left = limit by omega)
              simp only [after, step, if_neg hne, hcount, hrest, Memory.path, Memory.endsWithin,
                List.length_cons, Nat.succ_le_succ_iff, List.take_succ_cons, List.foldl_cons,
                Function.iterate_succ_apply, Memory.next_some]
              rw [Nat.add_assoc, Nat.add_comm 1 steps]

end Walk

/-- A walk visits the items on the way along the links up to the limit, in order, and tells whether
the way ended there. Step by step, its count of visits stays a word. The way is that of the iterates
of one step; it ends within the limit exactly if one of them is no item, and never does if it comes
to the same item twice. With a larger limit, a walk visits the same items and perhaps more. -/
theorem traverse_follows_links {ε : Type} (list : FreeList) (memory : Memory) (limit : Nat)
    (hlimit : limit < Word.modulus) (visit : β → Nat → β) (start : β) :
    let visited := memory.path limit list.head
    let ended := memory.endsWithin limit list.head
    list.traverse memory (fun seen item => (.ok (visit seen item) : Except ε β)) limit start =
      .ok (visited.foldl visit start, ended) ∧
    (∀ steps, Walk.after memory visit limit { entry := list.head, seen := start } steps =
      if steps ≤ visited.length then
        .underWay ⟨memory.next^[steps] list.head, steps, (visited.take steps).foldl visit start⟩
      else .over (visited.foldl visit start) ended) ∧
    (∀ k, visited[k]? = if k < limit then memory.next^[k] list.head else none) ∧
    (ended = true ↔ ∃ k ≤ limit, memory.next^[k] list.head = none) ∧
    (∀ first second, first < second →
      memory.next^[first] list.head = memory.next^[second] list.head →
      memory.next^[first] list.head ≠ none → ended = false ∧ visited.length = limit) ∧
    ∀ larger ≥ limit, visited <+: memory.path larger list.head ∧
      (ended = true → memory.endsWithin larger list.head = true ∧
        memory.path larger list.head = visited) := by
  intro visited ended
  refine ⟨?_, ?_, ?_, Memory.endsWithin_iff, ?_, ?_⟩
  · exact traverseFrom_eq_foldl_path memory visit limit list.head start
  · intro steps
    have hafter := Walk.after_eq memory visit { entry := list.head, seen := start } hlimit
      (Nat.zero_add limit) steps
    rwa [Nat.zero_add] at hafter
  · exact memory.getElem?_path limit list.head
  · intro first second hlt hreturn hentry
    have hendless := Memory.endsWithin_of_return hlt hreturn hentry limit
    exact ⟨hendless, Memory.length_path_of_endless hendless⟩
  · intro larger hlarger
    refine ⟨?_, fun hended => ⟨?_, Memory.path_eq_of_endsWithin hlarger hended⟩⟩
    · rw [show visited = _ from Memory.path_eq_take hlarger]
      exact List.take_prefix _ _
    · obtain ⟨k, hk, hend⟩ := Memory.endsWithin_iff.mp hended
      exact Memory.endsWithin_iff.mpr ⟨k, hk.trans hlarger, hend⟩

/-- Two items lead to one that is linked to itself. A walk with the largest limit there is counts
up to it and is not at the end of the links even then. -/
theorem traverse_of_selfLink :
    let memory := ((Memory.setLink {} 4096 (some 4112)).setLink 4112 (some 4128)).setLink 4128
      (some 4128)
    FreeList.traverse ⟨some 4096⟩ memory
      (fun count _ => (.ok (count + 1) : Except Fault Nat)) Word.max 0 =
        .ok (Word.max, false) := by
  intro memory
  obtain ⟨htraverse, -, -, -, hendless, -⟩ := @traverse_follows_links Nat Fault ⟨some 4096⟩
    memory Word.max (by decide) (fun count _ => count + 1) 0
  obtain ⟨hended, hlength⟩ := hendless 2 3 (by decide) (by decide +kernel)
    (by decide +kernel)
  rw [htraverse, hended, List.foldl_add_const, hlength]
  rfl

end FreeList

end SlabPool
