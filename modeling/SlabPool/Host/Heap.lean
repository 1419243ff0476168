import SlabPool.Layout

/-!
# A heap

A heap of which only the addresses matter. Blocks are laid out one after the other and never reused,
so that two blocks never overlap and every address tells which block it belongs to; giving a block
back leaves no trace.

A request beyond a fixed size is never granted, nor is one for a block that would not end within the
address space. A heap can also be set to refuse one request after it has granted a given number of
them.
-/

namespace SlabPool

/-- The part of the address space not yet used, and the number of requests to be granted before the
one that is refused, if one is. -/
structure Heap where
  next : Nat := 4096
  failIn : Option Nat := none
  deriving Inhabited

namespace Heap

/-- The largest request that is ever granted: 64 MiB. -/
def limit : Nat := 67108864

def addressEnd : Nat := 140737488355328

def request (heap : Heap) (bytes : Nat) : Bool × Heap :=
  match heap.failIn with
  | some 0 => (false, { heap with failIn := none })
  | failIn =>
    if bytes ≤ limit then
      (true, { heap with failIn := failIn.map (· - 1) })
    else
      (false, heap)

/-- The least multiple of `align` from `address` on. -/
def alignUp (address align : Nat) : Nat :=
  (address + (align - 1)) / align * align

def place (heap : Heap) (layout : Layout) : Nat × Heap :=
  let block := alignUp heap.next layout.align
  (block, { heap with next := block + layout.size })

/-- Requests a block and lays it out. Nobody is to request a block of no bytes. -/
def allocate (heap : Heap) (layout : Layout) : Except Stop Nat × Heap :=
  if layout.size = 0 then
    (.error (.fault .emptyLayout), heap)
  else
    match heap.request layout.size with
    | (false, heap) => (.error (.refused layout.failure), heap)
    | (true, heap) =>
      let (block, placed) := heap.place layout
      if block + layout.size ≤ addressEnd then
        (.ok block, placed)
      else
        (.error (.refused layout.failure), heap)

theorem le_alignUp {align : Nat} (h : 0 < align) (address : Nat) :
    address ≤ alignUp address align := by
  have hdiv := Nat.div_add_mod (address + (align - 1)) align
  have hmod := Nat.mod_lt (address + (align - 1)) h
  rw [alignUp, Nat.mul_comm]
  omega

theorem dvd_alignUp (address align : Nat) : align ∣ alignUp address align :=
  Nat.dvd_mul_left ..

/-- A block is laid out beyond all that were laid out before it, aligned as asked for, and within
the address space. -/
theorem allocate_eq_ok {heap after : Heap} {layout : Layout} {block : Nat}
    (hpos : 0 < layout.align) (h : heap.allocate layout = (.ok block, after)) :
    heap.next ≤ block ∧ layout.align ∣ block ∧ after.next = block + layout.size ∧
      block + layout.size ≤ addressEnd := by
  unfold allocate at h
  split at h
  · simp at h
  · split at h
    · simp at h
    · rename_i granted hgranted
      have hnext : granted.next = heap.next := by
        unfold request at hgranted
        grind
      dsimp only at h
      split at h
      · rename_i hend
        simp only [Prod.mk.injEq, Except.ok.injEq] at h
        obtain ⟨rfl, rfl⟩ := h
        exact ⟨hnext ▸ le_alignUp hpos granted.next, dvd_alignUp .., rfl, hend⟩
      · simp at h

end Heap

end SlabPool
