import SlabPool.Host.Collaborator
import SlabPool.Proofs.Reference.Simulation
import SlabPool.Session.Kind

/-!
A pool is a stack of places.

From the time it is made, a pool whose clients keep their contract cannot be told from the reference
machine: every request is answered alike, with items named by their places, and errors, capacities
and counts are the same, whatever the heap and the allocators answer, whatever clients write into
the items they hold and whatever others do to memory outside the slots (`Blueprint.history_eq`).
Both put the same questions to their surroundings.
-/

namespace SlabPool

variable {T : ItemType} {α σ : Type}

namespace Account

/-- A request was answered alike by an account and by the machine. -/
structure Answered (served : Served T α (Recorded α σ))
    (answer : StackPool.Answer T α (Recorded α σ) (Outcome T Place)) : Prop where
  supply_eq : served.world.supply = answer.supply
  result_eq : served.result.map (Outcome.map served.account.pool.index.locate?) =
    answer.result.map (Outcome.map some)
  mirrors : ∃ free, served.account.Mirrors served.world.memory answer.pool free

variable {account : Account T α} {stack : StackPool T α} {free : List Nat}

theorem Mirrors.serve_acquire (S : Supply α σ) {world : World (Recorded α σ)}
    (h : account.Mirrors world.memory stack free) (hcount : account.pool.acquired < Word.max)
    (hspread : (account.pool.acquire S.recorded world).pool.index.Spread) :
    Answered (account.serve S.recorded world .acquire)
      (stack.serve S.recorded world.supply .acquire) := by
  obtain ⟨hsupply, hacquired⟩ := h.acquire S hcount hspread
  cases hacquired with
  | failed stop free hresult hanswer hmirrors =>
      refine ⟨hsupply, ?_, free, ?_⟩
      · simp only [Account.serve, handOut, StackPool.serve, hresult, hanswer]
        rfl
      · simp only [Account.serve, handOut, StackPool.serve, hresult]
        exact hmirrors
  | handed item place free hresult hanswer haddress hmirrors =>
      refine ⟨hsupply, ?_, free, ?_⟩
      · simp only [Account.serve, handOut, StackPool.serve, hresult, hanswer]
        simp only [Except.map, Outcome.map, hspread.locate?_eq_some haddress]
      · simp only [Account.serve, handOut, StackPool.serve, hresult]
        exact hmirrors

theorem Mirrors.serve_insert (S : Supply α σ) {world : World (Recorded α σ)}
    (h : account.Mirrors world.memory stack free) (hcount : account.pool.acquired < Word.max)
    (hspread : (account.pool.acquire S.recorded world).pool.index.Spread) (value : T.Value) :
    Answered (account.serve S.recorded world (.insert value))
      (stack.serve S.recorded world.supply (.insert value)) := by
  obtain ⟨hsupply, hacquired⟩ := h.acquire S hcount hspread
  cases hacquired with
  | failed stop free hresult hanswer hmirrors =>
      simp only [Account.serve, Pool.insert, handOut, StackPool.serve, hresult, hanswer]
      exact ⟨hsupply, rfl, free, hmirrors⟩
  | handed item place free hresult hanswer haddress hmirrors =>
      have haligned := hmirrors.sound.eight_dvd_held hspread List.mem_cons_self
      have hentered := hmirrors.enter hspread haddress List.mem_cons_self
        (.store haligned _ value) fun _ h => ItemType.load_of_stored h _ _
      rw [Function.update_idem] at hentered
      simp only [Account.serve, Pool.insert, handOut, StackPool.serve, hresult, hanswer]
      refine ⟨hsupply, ?_, free, hentered⟩
      simp only [Except.map, Outcome.map, hspread.locate?_eq_some haddress]

theorem Mirrors.serve_remove (S : Supply α σ) {world : World (Recorded α σ)}
    (h : account.Mirrors world.memory stack free) (hspread : account.pool.index.Spread)
    {place : Place} {item : Nat} (hplace : account.pool.index.address? place = some item)
    (hitem : item ∈ account.held) (hcontent : (account.contents item).isSome) :
    Answered (account.serve S.recorded world (.remove item))
      (stack.serve S.recorded world.supply (.remove place)) := by
  obtain ⟨value, hvalue⟩ := Option.isSome_iff_exists.mp hcontent
  have hload := h.sound.values item hitem value hvalue
  have hstack := (h.contents place item hplace hitem).trans hvalue
  cases hfinal : T.finalise value.val with
  | none =>
      simp only [Account.serve, Pool.remove, takeBack, StackPool.serve, hload, hstack,
        Option.bind_some, hfinal]
      exact ⟨rfl, rfl, _, h.release hspread hplace hitem⟩
  | some message =>
      simp only [Account.serve, Pool.remove, takeBack, StackPool.serve, hload, hstack,
        Option.bind_some, hfinal]
      exact ⟨rfl, rfl, _, h.enter hspread hplace hitem (.refl _ _) (by simp)⟩

theorem Mirrors.serve_grow (S : Supply α σ) {world : World (Recorded α σ)}
    (h : account.Mirrors world.memory stack free) (capacity : Capacity)
    (hspread : (account.pool.grow S.recorded capacity world).pool.index.Spread) :
    Answered (account.serve S.recorded world (.grow capacity))
      (stack.serve S.recorded world.supply (.grow capacity)) := by
  obtain ⟨added, hmirrors, -⟩ := h.grow S capacity hspread
  have hagrees := StackPool.grow_agrees S.recorded h.backs capacity world
  refine ⟨hagrees.supply_eq, ?_, _, hmirrors⟩
  simp only [Account.serve, StackPool.serve, hagrees.result_eq]
  cases (stack.grow S.recorded capacity world.supply).result with
  | error stop => rfl
  | ok done => rfl

theorem Mirrors.serve_destroy (S : Supply α σ) {world : World (Recorded α σ)}
    (h : account.Mirrors world.memory stack free)
    (hfits : ∀ slab ∈ account.pool.index.slabs, slab.Fits) :
    Answered (account.serve S.recorded world .destroy)
      (stack.serve S.recorded world.supply .destroy) := by
  obtain ⟨hallocator, hslabs, hreserved, hacquired⟩ := h.backs
  have hback := StackPool.handBack_eq S.recorded account.pool.allocator hfits world.supply
  simp only [Account.serve, Pool.destroy, StackPool.serve, StackPool.destroy, hallocator, hslabs,
    hback]
  rcases Slab.releaseAll S.recorded account.pool.allocator account.pool.index.slabs
    world.supply with ⟨fault | _, record⟩
  · refine ⟨rfl, rfl, [], Mirrors.empty rfl rfl ?_ rfl _⟩
    exact ⟨rfl, rfl, hreserved, hacquired⟩
  · refine ⟨rfl, rfl, [], Mirrors.empty rfl rfl ?_ rfl _⟩
    exact ⟨rfl, rfl, rfl, rfl⟩

theorem Mirrors.serve (S : Supply α σ) {world : World (Recorded α σ)}
    (h : account.Mirrors world.memory stack free)
    (hfits : ∀ slab ∈ account.pool.index.slabs, slab.Fits) {request : Request T Place}
    (hcounted : account.PermitsCountedAt request) (hspread : account.pool.index.Spread)
    (hspread' : (account.serve S.recorded world
      (request.map account.resolve)).account.pool.index.Spread) :
    Answered (account.serve S.recorded world (request.map account.resolve))
      (stack.serve S.recorded world.supply request) := by
  obtain ⟨⟨hpermits, hknown⟩, hcount⟩ := hcounted
  cases request with
  | acquire =>
      have hpool := account.handOut_pool none (account.pool.acquire S.recorded world)
      exact h.serve_acquire S (hcount rfl) (congrArg (·.index) hpool ▸ hspread')
  | insert value =>
      have hpool := (account.handOut_pool (some value) _).trans
        (account.pool.insert_backing S.recorded value world).1
      exact h.serve_insert S (hcount rfl) (congrArg (·.index) hpool ▸ hspread') value
  | release place =>
      have hplace := h.sound.address?_resolve hspread hpermits
      exact ⟨rfl, rfl, _, h.release hspread hplace hpermits⟩
  | remove place =>
      exact h.serve_remove S hspread (h.sound.address?_resolve hspread hpermits) hpermits hknown
  | grow capacity => exact h.serve_grow S capacity hspread'
  | check =>
      simp only [Account.serve, Request.map, h.sound.check_eq_ok hspread]
      exact ⟨rfl, rfl, free, h⟩
  | destroy => exact h.serve_destroy S hfits
  | read place =>
      have hplace := h.sound.address?_resolve hspread hpermits
      obtain ⟨value, hvalue⟩ := Option.isSome_iff_exists.mp hknown
      have hload := h.sound.values _ hpermits value hvalue
      have hstack := (h.contents place _ hplace hpermits).trans hvalue
      simp only [Account.serve, Request.map, StackPool.serve, hload, hstack]
      exact ⟨rfl, rfl, free, h⟩
  | write place value =>
      have hplace := h.sound.address?_resolve hspread hpermits
      have haligned := h.sound.eight_dvd_held hspread hpermits
      exact ⟨rfl, rfl, free, h.enter hspread hplace hpermits (.store haligned _ value)
        fun _ h => ItemType.load_of_stored h _ _⟩
  | scribble place offset words =>
      obtain ⟨hitem, hoffset, hwithin⟩ := hpermits
      have hplace := h.sound.address?_resolve hspread hitem
      have haligned := h.sound.eight_dvd_held hspread hitem
      have hstack := h.contents place _ hplace hitem
      simp only [Account.serve, Request.map, StackPool.serve, hstack]
      refine ⟨rfl, rfl, free, h.enter hspread hplace hitem
        (.writeRow haligned hoffset hwithin _) ?_⟩
      intro value hvalue
      exact ItemType.load_of_overwritten haligned hoffset (h.sound.values _ hitem) hvalue

/-! ### Runs -/

theorem Mirrors.report_eq {memory : Memory} (h : account.Mirrors memory stack free)
    {result : Except Stop (Outcome T Nat)} {answer : Except Stop (Outcome T Place)}
    (hresult : result.map (Outcome.map account.pool.index.locate?) =
      answer.map (Outcome.map some)) : account.report result = stack.report answer := by
  rw [Account.report, StackPool.report, hresult, h.backs.slabs, h.backs.acquired,
    ← h.isEmpty_eq]
  rfl

theorem suffix_course (S : Supply α σ) (account : Account T α) (world : World (Recorded α σ))
    (occasions : List (Occasion T σ)) :
    world.supply.calls <:+ (account.course S world occasions).2.supply.calls := by
  induction occasions generalizing account world with
  | nil => exact List.suffix_rfl
  | cons occasion occasions ih => exact (account.suffix_attend S world occasion).trans (ih _ _)

variable [DecidableEq α]

theorem Mirrors.course_eq (S : Supply α σ) {world : World (Recorded α σ)}
    (h : account.Mirrors world.memory stack free) (hbacked : account.Backed world.supply.calls)
    {occasions : List (Occasion T σ)} (hlawful : account.LawfulCountedAt S world occasions)
    (hspared : account.Spared S world occasions)
    (hhonest : Honest (account.course S world occasions).2.supply.calls) :
    (account.course S world occasions).1 = (stack.course S world.supply occasions).1 ∧
      (account.course S world occasions).2.supply =
        (stack.course S world.supply occasions).2 := by
  induction occasions generalizing account stack free world with
  | nil => exact ⟨rfl, rfl⟩
  | cons occasion occasions ih =>
      obtain ⟨hcounted, hlawful⟩ := hlawful
      obtain ⟨hkeeps, hspared⟩ := hspared
      -- the blocks are those of honest allocators before the request and after it
      have hnext : (account.attend S world occasion).account.Backed _ :=
        hbacked.serve S (occasion.world world) (occasion.request.map account.resolve)
      have hhonest' := hhonest.of_suffix (suffix_course S _ _ occasions)
      have hspread := hbacked.spread (hhonest'.of_suffix (account.suffix_attend S world occasion))
      have hfound : account.Mirrors (occasion.world world).memory stack free := h.congr hkeeps
      obtain ⟨hsupply, hresult, free', hmirrors⟩ :=
        hfound.serve S hbacked.fits hcounted hspread (hnext.spread hhonest')
      obtain ⟨hreports, hfinal⟩ := ih hmirrors hnext hlawful hspared hhonest
      rw [hsupply] at hreports hfinal
      refine ⟨?_, hfinal⟩
      exact congrArg₂ List.cons (hmirrors.report_eq hresult) hreports

end Account

namespace Blueprint

/-- A pool and a machine are made alike, or cannot be made for the same reason. -/
theorem build_agrees (S : Supply α σ) (plan : Blueprint α) (world : World (Recorded α σ)) :
    let reply := plan.build S.recorded T world
    let answer := StackPool.build S.recorded T plan world.supply
    reply.world.supply = answer.supply ∧ reply.result.map (fun _ => ()) = answer.result ∧
      ∀ pool, reply.result = .ok pool → pool.index.Spread →
        ∃ free, Account.Mirrors { pool } reply.world.memory answer.pool free := by
  have hbacks : StackPool.Backs ({ allocator := plan.allocator } : StackPool T α)
      { allocator := plan.allocator } := ⟨rfl, rfl, rfl, rfl⟩
  have hempty := Account.Mirrors.empty rfl rfl hbacks rfl world.memory
  cases hinitial : plan.initial with
  | none =>
      simp only [build, StackPool.build, hinitial]
      refine ⟨trivial, rfl, ?_⟩
      rintro _ ⟨⟩ -
      exact ⟨[], hempty⟩
  | some capacity =>
      have hagrees := StackPool.grow_agrees S.recorded hbacks capacity world
      simp only [build, StackPool.build, hinitial]
      refine ⟨hagrees.supply_eq, ?_, ?_⟩
      · rw [hagrees.result_eq]
        cases (StackPool.grow S.recorded _ capacity world.supply).result with
        | error stop => rfl
        | ok done => rfl
      · intro pool hresult hspread
        cases hturn : (Pool.grow S.recorded { allocator := plan.allocator } capacity world
            : Turn T α (Recorded α σ) Unit).result with
        | error stop =>
            rw [hturn] at hresult
            cases hresult
        | ok done =>
            rw [hturn] at hresult
            cases hresult
            obtain ⟨added, hmirrors, -⟩ := hempty.grow S capacity hspread
            exact ⟨_, hmirrors⟩

variable [DecidableEq α]

/-- From the time it is made, a pool gives the same results as the reference machine and puts the
same questions to its surroundings, if clients keep their contract and ask for slots only while
acquisitions can be counted, if others keep out of the slots of the pool, and if allocators are
honest. -/
theorem history_eq (S : Supply α σ) (T : ItemType) (plan : Blueprint α) (memory : Memory)
    (state : σ) (occasions : List (Occasion T σ))
    (hlawful : plan.LawfulCountedAt S T { memory, supply := { state } } occasions)
    (hspared : plan.Spared S T { memory, supply := { state } } occasions)
    (hhonest : Honest
      (plan.history S T { memory, supply := { state } } occasions).2.supply.calls) :
    let history := plan.history S T { memory, supply := { state } } occasions
    let reference := StackPool.history S T plan { state } occasions
    history.1 = reference.1 ∧ history.2.supply = reference.2 := by
  intro history reference
  obtain ⟨hsupply, hresult, hmade⟩ := plan.build_agrees (T := T) S { memory, supply := { state } }
  have hbuilt := plan.build_built (T := T) S { memory, supply := { state } }
  -- from here on, nothing depends on how the pool was made
  simp only [LawfulCountedAt] at hlawful
  simp only [Blueprint.Spared] at hspared
  simp only [Blueprint.history] at hhonest
  simp only [history, reference, Blueprint.history, StackPool.history]
  generalize plan.build S.recorded T { memory, supply := { state } } = reply
    at hsupply hresult hmade hbuilt hlawful hspared hhonest ⊢
  cases hpool : reply.result with
  | error stop =>
      rw [hpool] at hresult
      simp only [← hresult, Except.map]
      exact ⟨trivial, hsupply⟩
  | ok pool =>
      rw [hpool] at hresult
      simp only [hpool] at hhonest
      simp only [← hresult, Except.map, ← hsupply]
      have hmem : pool ∈ reply.result.toOption := by
        rw [hpool]
        rfl
      have hbacked := (hbuilt.turnover hpool).backed (.new _ _)
      have hfirst := hhonest.of_suffix (Account.suffix_course S { pool } reply.world occasions)
      obtain ⟨free, hmirrors⟩ := hmade pool hpool (hbacked.spread hfirst)
      obtain ⟨hreports, hfinal⟩ :=
        hmirrors.course_eq S hbacked (hlawful pool hmem) (hspared pool hmem) hhonest
      refine ⟨?_, hfinal⟩
      exact congrArg₂ List.cons (hmirrors.report_eq rfl) hreports

/-- A pool is used in many ways. Its first block is a recycled one in which every word is a link.
The client writes over the stale link in its first item before it gives it back. -/
def manyWays : List (Occasion Kind.pair.itemType Host) :=
  { request := .acquire, memory := fun memory => memory.writeRow 4096 (.replicate 16 4112) } ::
    Occasion.quiet
      [.insert (Kind.pair.fit [1, 2]),
        .scribble ⟨0, 0⟩ 0 [4112, 7],
        .release ⟨0, 0⟩,
        .grow 3,
        .grow 18446744073709551615,
        .check,
        .acquire,
        .read ⟨0, 1⟩,
        .remove ⟨0, 1⟩,
        .acquire,
        .destroy,
        .acquire]

theorem history_of_manyWays :
    let plan : Blueprint Collaborator := { allocator := {} }
    let history := plan.history Host.supply Kind.pair.itemType
      { memory := {}, supply := { state := {} } } manyWays
    history.1.map (·.acquired) = [0, 1, 2, 2, 2, 2, 2, 2, 3, 3, 3, 4, 0, 1] ∧
      history.1 = (StackPool.history Host.supply Kind.pair.itemType plan
        { state := {} } manyWays).1 := by
  intro plan history
  have hspared : plan.Spared Host.supply Kind.pair.itemType
      { memory := {}, supply := { state := {} } } manyWays := by
    rintro pool ⟨⟩
    exact ⟨nofun, Account.spared_quiet _ _ _ _⟩
  exact ⟨by decide +kernel, (history_eq Host.supply Kind.pair.itemType plan {} {} manyWays
    (by decide +kernel) hspared (by decide +kernel)).1⟩

end Blueprint

end SlabPool
