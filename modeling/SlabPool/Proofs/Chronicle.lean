import SlabPool.Host.Collaborator
import SlabPool.Proofs.Estate.Coverage
import SlabPool.Proofs.Faults
import SlabPool.Proofs.NoTrace
import SlabPool.Proofs.Reuse
import SlabPool.Session.Kind

/-!
The log of a pool.

What a pool reports is all that anybody outside ever sees of its slabs, and nothing ties the reports
to the list of slabs but the places where they are made. A reader does not get events but lines,
with a message and named parts, and knows what happened by the wording alone. The log of a pool is
what it reported since it was made, and `replay` is what a reader makes of its lines: a capacity is
added for each slab that was allocated, and all are struck out when the slabs are released. In every
run in which no allocator raises a fault, the reader ends up with the capacities of the slabs, and
every line reads as it should where it stands (`Chronicle`).

Each action reports at most once. It reports of growth if it makes the pool grow, of the end of all
slabs if it brings it about, and otherwise nothing.

Main statement: `Estate.log_faithful`.
-/

namespace SlabPool

variable {ι α σ : Type}

/-! ### Reading a log -/

namespace LogLine

/-- The number that stands under a name. -/
def number? (line : LogLine) (name : String) : Option Nat :=
  match line.parts.lookup name with
  | some (.number n) => some n
  | _ => none

/-- The capacities of the slabs after a line, given those before. -/
def replay (capacities : List Nat) (line : LogLine) : List Nat :=
  if line.message = "allocated slab for pool" then
    capacities ++ (line.number? "capacity").toList
  else if line.message = "released all slabs of pool" then
    []
  else
    capacities

/-- The lines that a pool of items of the given name can report when its slabs have the given
capacities. -/
inductive Accurate (name : String) (capacities : List Nat) : LogLine → Prop
  | allocated (capacity : Nat) : Accurate name capacities
    ⟨.trace, "allocated slab for pool",
      [("item_type", .text name), ("capacity", .number capacity),
        ("slab_count", .number (capacities.length + 1))]⟩
  | released : Accurate name capacities
    ⟨.debug, "released all slabs of pool",
      [("item_type", .text name), ("slab_count", .number capacities.length)]⟩
  | unlisted : Accurate name capacities
    ⟨.debug, "failed to grow slab index of pool",
      [("item_type", .text name),
        ("requested", .number (Word.saturatingAdd capacities.length 1))]⟩
  | refused (capacity : Nat) (failure : AllocationFailure) : Accurate name capacities
    ⟨.debug, "failed to allocate slab for pool",
      [("item_type", .text name), ("capacity", .number capacity),
        ("error", .text failure.message)]⟩

end LogLine

/-- The capacities of the slabs that a log tells of. -/
def replay (log : List LogLine) : List Nat :=
  log.foldl LogLine.replay []

/-- The log tells of slabs of the given capacities, and all of its lines are right. -/
structure Chronicle (name : String) (log : List LogLine) (capacities : List Nat) : Prop where
  replay_eq : replay log = capacities
  accurate : ∀ before line after, log = before ++ line :: after →
    line.Accurate name (replay before)

theorem Chronicle.nil (name : String) : Chronicle name [] [] where
  replay_eq := rfl
  accurate before line after h := by simp at h

theorem Chronicle.concat {name : String} {log : List LogLine} {capacities : List Nat}
    (h : Chronicle name log capacities) {line : LogLine} (hline : line.Accurate name capacities) :
    Chronicle name (log ++ [line]) (line.replay capacities) where
  replay_eq := by rw [replay, List.foldl_concat, ← h.replay_eq, replay]
  accurate := by
    intro before other after hlog
    -- it is the new line, or one of those that were there
    rcases List.eq_nil_or_concat after with rfl | ⟨rest, last, rfl⟩
    · obtain ⟨rfl, hsame⟩ := List.append_inj' hlog rfl
      cases hsame
      exact h.replay_eq ▸ hline
    · rw [List.concat_eq_append, ← List.cons_append, ← List.append_assoc] at hlog
      exact h.accurate before other rest (List.append_inj_left' hlog rfl)

/-- What one operation can add to a log, with the capacities of the slabs before and after. -/
inductive Noted (name : String) (capacities : List Nat) : List LogLine → List Nat → Prop
  | silent : Noted name capacities [] capacities
  | told (line : LogLine) (accurate : line.Accurate name capacities) :
    Noted name capacities [line] (line.replay capacities)

theorem Chronicle.append {name : String} {log lines : List LogLine} {capacities after : List Nat}
    (h : Chronicle name log capacities) (hnoted : Noted name capacities lines after) :
    Chronicle name (log ++ lines) after := by
  cases hnoted with
  | silent => exact (List.append_nil log).symm ▸ h
  | told line haccurate => exact h.concat haccurate

section

variable {T : ItemType}

/-! ### Reports of growth -/

theorem Pool.length_capacities (pool : Pool T α) : pool.capacities.length = pool.numSlabs := by
  rw [Pool.capacities, SlabIndex.capacities, List.length_map]
  rfl

/-- What growth reports and how it is answered, where no fault is raised. -/
inductive Pool.Reported (pool : Pool T α) (capacity : Capacity) (turn : Turn T α σ Unit) : Prop
  | added
      (result_eq : turn.result = .ok ())
      (lines_eq : turn.events.map Event.line =
        [⟨.trace, "allocated slab for pool",
          [("item_type", .text T.name), ("capacity", .number capacity.val),
            ("slab_count", .number (pool.numSlabs + 1))]⟩])
      (capacities_eq : turn.pool.capacities = pool.capacities ++ [capacity.val])
  | unlisted
      (result_eq : turn.result =
        .error (.refused (indexFailure (Word.saturatingAdd pool.numSlabs 1))))
      (lines_eq : turn.events.map Event.line =
        [⟨.debug, "failed to grow slab index of pool",
          [("item_type", .text T.name),
            ("requested", .number (Word.saturatingAdd pool.numSlabs 1))]⟩])
      (capacities_eq : turn.pool.capacities = pool.capacities)
  | refused (failure : AllocationFailure)
      (result_eq : turn.result = .error (.refused failure))
      (lines_eq : turn.events.map Event.line =
        [⟨.debug, "failed to allocate slab for pool",
          [("item_type", .text T.name), ("capacity", .number capacity.val),
            ("error", .text failure.message)]⟩])
      (capacities_eq : turn.pool.capacities = pool.capacities)

theorem Pool.grow_reported (S : Supply α σ) {pool : Pool T α} {capacity : Capacity}
    {world : World (Recorded α σ)}
    (hcalm : ∀ fault, ¬ Raised world.supply.calls
      (pool.grow S.recorded capacity world).world.supply.calls fault) :
    pool.Reported capacity (pool.grow S.recorded capacity world) := by
  have hfault : ∀ fault,
      (pool.grow S.recorded capacity world).result ≠ .error (.fault fault) :=
    fun fault h => hcalm fault (Pool.raised_of_grow S h)
  rcases hreserve : pool.index.reserve S.recorded world.supply with ⟨_ | index, record⟩
  · simp only [Pool.grow, hreserve]
    exact .unlisted rfl rfl rfl
  · have hslabs : index.slabs = pool.index.slabs :=
      SlabIndex.slabs_of_reserve (congrArg Prod.fst hreserve)
    rcases hanswer : Slab.allocate S.recorded pool.allocator T capacity record with
      ⟨(failure | fault) | slab, after⟩
    · simp only [Pool.grow, hreserve, hanswer]
      refine .refused failure rfl rfl ?_
      simp only [Pool.capacities, SlabIndex.capacities, hslabs]
    · refine absurd ?_ (hfault fault)
      simp only [Pool.grow, hreserve, hanswer]
    · -- the event tells the capacity that was asked for, the list has that of the slab
      have hcapacity : slab.capacity = capacity := by
        have hallocated := Slab.allocate_recorded (T := T) S pool.allocator capacity record
        rw [hanswer] at hallocated
        obtain ⟨stop, hstop, -⟩ | ⟨_, ⟨⟩, hcapacity, -⟩ := hallocated
        · cases hstop
        · exact hcapacity
      simp only [Pool.grow, hreserve, hanswer, FreeList.pushRow_of_pos slab.capacity.property]
      refine .added rfl ?_ ?_
      · simp only [SlabIndex.append, List.length_append, List.length_singleton, hslabs,
          Pool.numSlabs]
        rfl
      · show (index.append slab).capacities = _
        rw [SlabIndex.capacities_append, hcapacity, SlabIndex.capacities, hslabs]
        rfl

theorem Pool.Reported.noted {pool : Pool T α} {capacity : Capacity} {turn : Turn T α σ Unit}
    (h : pool.Reported capacity turn) :
    Noted T.name pool.capacities (turn.events.map Event.line) turn.pool.capacities := by
  have hlength := pool.length_capacities
  cases h with
  | added _ hlines hcapacities =>
      rw [hlines, hcapacities, ← hlength]
      exact .told _ (.allocated capacity.val)
  | unlisted _ hlines hcapacities =>
      rw [hlines, hcapacities, ← hlength]
      exact .told _ .unlisted
  | refused failure _ hlines hcapacities =>
      rw [hlines, hcapacities]
      exact .told _ (.refused capacity.val failure)

/-! ### Reports of requests -/

namespace Account

variable {account : Account T α} {request : Request T Nat}

/-- What a request that makes its pool grow has from growth. -/
structure Demanding (S : Supply α σ) (account : Account T α) (world : World σ)
    (request : Request T Nat) (capacity : Capacity) : Prop where
  events_eq : (account.serve S world request).events =
    (account.pool.grow S capacity world).events
  index_eq : (account.serve S world request).account.pool.index =
    (account.pool.grow S capacity world).pool.index
  supply_eq : (account.serve S world request).world.supply =
    (account.pool.grow S capacity world).world.supply
  refused : ∀ failure, (account.pool.grow S capacity world).result = .error (.refused failure) →
    (∀ discarded ∈ (account.serve S world request).destroyed, T.finalise discarded = none) →
    (account.serve S world request).result = .error (.refused failure)

theorem serve_of_demand (S : Supply α σ) (world : World σ) {capacity : Capacity}
    (h : account.pool.demand? request = some capacity) :
    account.Demanding S world request capacity := by
  have hneeded : request.takes = true →
      account.pool.free.head = none ∧ account.pool.nextGrowth = capacity := by
    intro htakes
    cases hhead : account.pool.free.head with
    | none => exact ⟨rfl, Option.some.inj ((Pool.demand?_of_none htakes hhead).symm.trans h)⟩
    | some item => cases (Pool.demand?_of_some htakes hhead).symm.trans h
  cases request with
  | acquire =>
      obtain ⟨hhead, rfl⟩ := hneeded rfl
      obtain ⟨hevents, -, hworld⟩ := Pool.acquire_of_none S hhead world
      refine ⟨hevents, ?_, congrArg (·.supply) hworld, ?_⟩
      · rw [account.serve_pool_of_takes S world rfl, Pool.index_acquire_of_none S hhead]
      · intro failure hfailure _
        simp only [serve, handOut, Pool.acquire_of_failed S hhead hfailure]
        rfl
  | insert value =>
      obtain ⟨hhead, rfl⟩ := hneeded rfl
      obtain ⟨hevents, -, hworld⟩ := Pool.acquire_of_none S hhead world
      have hsupply := (account.pool.insert_backing S value world).2
      refine ⟨(account.pool.insert_events S value world).trans hevents, ?_,
        hsupply.trans (congrArg (·.supply) hworld), ?_⟩
      · rw [account.serve_pool_of_takes S world rfl, Pool.index_acquire_of_none S hhead]
      · intro failure hfailure hdiscarded
        have hturn := Pool.acquire_of_failed S hhead hfailure
        have hinsert : account.pool.insert S value world = _ :=
          Pool.insert_of_error S (congrArg (·.result) hturn)
        simp only [serve, handOut, hinsert] at hdiscarded ⊢
        have hnone : T.finalise value.val = none := hdiscarded value.val (by simp)
        rw [hnone]
        rfl
  | grow count =>
      obtain rfl : count = capacity := Option.some.inj h
      refine ⟨rfl, rfl, rfl, ?_⟩
      intro failure hfailure _
      simp only [serve, hfailure]
      rfl
  | release | remove | check | destroy | read | write | scribble => cases h

/-- A request that neither makes its pool grow nor ends its slabs reports nothing. -/
theorem serve_of_no_demand (S : Supply α σ) (world : World σ)
    (h : account.pool.demand? request = none) (hne : request ≠ .destroy) :
    (account.serve S world request).events = [] ∧
      (account.serve S world request).account.pool.index = account.pool.index := by
  have hfree : request.takes = true → account.pool.free.isEmpty = false := by
    intro htakes
    cases hhead : account.pool.free.head with
    | none => cases (Pool.demand?_of_none htakes hhead).symm.trans h
    | some item => simp [FreeList.isEmpty, hhead]
  have hacquire : account.pool.free.isEmpty = false →
      (account.pool.acquire S world).events = [] ∧
        (account.pool.acquire S world).pool.index = account.pool.index := by
    intro hempty
    simp only [Pool.acquire, hempty]
    exact ⟨rfl, (account.pool.take_index world.memory).1⟩
  cases request with
  | acquire =>
      obtain ⟨hevents, hindex⟩ := hacquire (hfree rfl)
      exact ⟨hevents, by rw [account.serve_pool_of_takes S world rfl, hindex]⟩
  | insert value =>
      obtain ⟨hevents, hindex⟩ := hacquire (hfree rfl)
      refine ⟨(account.pool.insert_events S value world).trans hevents, ?_⟩
      rw [account.serve_pool_of_takes S world rfl, hindex]
  | release item => exact ⟨rfl, congrArg (·.index) (account.takeBack_pool item _)⟩
  | remove item =>
      refine ⟨?_, ?_⟩
      · simp only [serve, takeBack, Pool.remove]
        split
        · rfl
        · rfl
      · exact (congrArg (·.index) (account.takeBack_pool item _)).trans
          (account.pool.remove_backing item world).1
  | grow capacity => cases h
  | check =>
      simp only [serve]
      split
      · exact ⟨rfl, rfl⟩
      · exact ⟨rfl, rfl⟩
  | destroy => exact absurd rfl hne
  | read | write | scribble => exact ⟨rfl, rfl⟩

/-- Nor does such a request turn to the surroundings. -/
theorem supply_of_no_demand (S : Supply α σ) (world : World σ)
    (h : account.pool.demand? request = none) (hne : request ≠ .destroy) :
    (account.serve S world request).world.supply = world.supply := by
  have hacquire : request.takes = true →
      (account.pool.acquire S world).world.supply = world.supply := by
    intro htakes
    cases hhead : account.pool.free.head with
    | none => cases (Pool.demand?_of_none htakes hhead).symm.trans h
    | some item => simp [Pool.acquire, FreeList.isEmpty, hhead]
  cases request with
  | acquire => exact hacquire rfl
  | insert value => exact (account.pool.insert_backing S value world).2.trans (hacquire rfl)
  | remove item => exact (account.pool.remove_backing item world).2.2
  | grow capacity => cases h
  | check =>
      simp only [serve]
      split
      · rfl
      · rfl
  | destroy => exact absurd rfl hne
  | release | read | write | scribble => rfl

end Account

theorem Pool.lines_destroy_of_ok (S : Supply α σ) {pool : Pool T α} {world : World σ}
    (h : (pool.destroy S world).result = .ok ()) :
    (pool.destroy S world).events.map Event.line =
      [⟨.debug, "released all slabs of pool",
        [("item_type", .text T.name), ("slab_count", .number pool.numSlabs)]⟩] := by
  simp only [Pool.destroy] at h ⊢
  split at h
  · cases h
  · rfl

/-- Where no fault is raised, all slabs are given back. -/
theorem Pool.destroy_ok (S : Supply α σ) {pool : Pool T α} {world : World (Recorded α σ)}
    (hfits : ∀ slab ∈ pool.index.slabs, slab.Fits)
    (hcalm : ∀ fault, ¬ Raised world.supply.calls
      (pool.destroy S.recorded world).world.supply.calls fault) :
    (pool.destroy S.recorded world).result = .ok () := by
  obtain ⟨_ | ⟨⟩, hresult, hback⟩ := pool.handBack_destroy S hfits world
  · exact absurd hback.raised (hcalm _)
  · exact hresult

theorem Account.serve_noted (S : Supply α σ) {account : Account T α}
    {world : World (Recorded α σ)} (hfits : ∀ slab ∈ account.pool.index.slabs, slab.Fits)
    (request : Request T Nat)
    (hcalm : ∀ fault, ¬ Raised world.supply.calls
      (account.serve S.recorded world request).world.supply.calls fault) :
    Noted T.name account.pool.capacities
      ((account.serve S.recorded world request).events.map Event.line)
      (account.serve S.recorded world request).account.pool.capacities := by
  cases hdemand : account.pool.demand? request with
  | some capacity =>
      have h := account.serve_of_demand S.recorded world hdemand
      rw [h.supply_eq] at hcalm
      rw [h.events_eq, Pool.capacities, Pool.capacities, h.index_eq]
      exact (Pool.grow_reported S hcalm).noted
  | none =>
      by_cases hdestroy : request = .destroy
      · subst hdestroy
        have hresult := Pool.destroy_ok S hfits hcalm
        have hpool := Pool.destroy_of_ok S.recorded hresult
        have hlines := Pool.lines_destroy_of_ok S.recorded hresult
        simp only [serve, hpool, hlines]
        rw [← account.pool.length_capacities]
        exact .told _ .released
      · obtain ⟨hevents, hindex⟩ := account.serve_of_no_demand S.recorded world hdemand hdestroy
        rw [hevents, Pool.capacities, Pool.capacities, hindex]
        exact .silent

theorem Blueprint.build_noted (S : Supply α σ) {plan : Blueprint α}
    {world : World (Recorded α σ)} {pool : Pool T α}
    (hcalm : ∀ fault, ¬ Raised world.supply.calls
      (plan.build S.recorded T world).world.supply.calls fault)
    (h : (plan.build S.recorded T world).result = .ok pool) :
    Noted T.name [] ((plan.build S.recorded T world).events.map Event.line)
      pool.capacities := by
  cases hinitial : plan.initial with
  | none =>
      simp only [Blueprint.build, hinitial] at h ⊢
      cases h
      exact .silent
  | some capacity =>
      simp only [Blueprint.build, hinitial] at h hcalm ⊢
      cases hresult : (Pool.grow S.recorded ({ allocator := plan.allocator } : Pool T α) capacity
          world).result with
      | error stop =>
          rw [hresult] at h
          cases h
      | ok done =>
          rw [hresult] at h
          cases h
          exact (Pool.grow_reported S hcalm).noted

theorem SlabIndex.length_slabs_le (index : SlabIndex T) :
    index.slabs.length ≤ index.slots.length := by
  obtain ⟨slabs, reserved⟩ := index
  induction slabs with
  | nil => exact Nat.le_refl _
  | cons slab slabs ih =>
      have hpos : 0 < slab.slots.length := by
        rw [Slab.slots, FreeList.length_row]
        exact slab.capacity.property
      simp only [slots, List.flatMap_cons, List.length_append, List.length_cons] at ih ⊢
      omega

/-- Slots begin at multiples of eight, so there are not nearly as many slabs as words. -/
theorem Pool.numSlabs_lt {pool : Pool T α} (h : pool.index.Spread) :
    pool.numSlabs + 1 ≤ Word.max := by
  -- no two slots are the same, and every slab has one
  have hslots := h.length_slots_le fun item hitem =>
    Nat.le_of_dvd (h.slot_pos hitem) (h.eight_dvd_slot hitem)
  have hslabs := pool.index.length_slabs_le
  unfold Word.modulus at hslots
  unfold Word.max
  unfold Pool.numSlabs
  omega

end

/-! ### Logs of pools -/

namespace Estate

variable {T : ι → ItemType}

/-- The pool that the action makes grow, and by how many slots. -/
def demand? (estate : Estate T α σ) : Action T α → Option (Σ i, Pool (T i) α × Capacity)
  | .build i plan =>
    match estate.accounts i with
    | some _ => none
    | none => plan.initial.map fun capacity => ⟨i, { allocator := plan.allocator }, capacity⟩
  | .use i request =>
    match estate.accounts i with
    | none => none
    | some account =>
      (account.pool.demand? request).map fun capacity => ⟨i, account.pool, capacity⟩
  | .drop _ | .elsewhere _ _ => none

variable {estate : Estate T α σ}

/-- An action that makes a pool grow is one that makes the pool, or a request to it. -/
inductive Demanded (estate : Estate T α σ) :
    Action T α → (i : ι) → Pool (T i) α → Capacity → Prop
  | built {i : ι} {capacity : Capacity} (plan : Blueprint α)
    (missing : estate.accounts i = none)
    (initial_eq : plan.initial = some capacity) :
    Demanded estate (.build i plan) i { allocator := plan.allocator } capacity
  | served {i : ι} {capacity : Capacity} (account : Account (T i) α) (request : Request (T i) Nat)
    (found : estate.accounts i = some account)
    (demand_eq : account.pool.demand? request = some capacity) :
    Demanded estate (.use i request) i account.pool capacity

theorem demanded_of_demand? {action : Action T α} {i : ι} {pool : Pool (T i) α}
    {capacity : Capacity} (h : estate.demand? action = some ⟨i, pool, capacity⟩) :
    estate.Demanded action i pool capacity := by
  cases action with
  | build j plan =>
      cases hfound : estate.accounts j with
      | some account => simp [demand?, hfound] at h
      | none =>
          simp only [demand?, hfound, Option.map_eq_some_iff] at h
          obtain ⟨count, hinitial, hsame⟩ := h
          cases hsame
          exact .built plan hfound hinitial
  | use j request =>
      cases hfound : estate.accounts j with
      | none => simp [demand?, hfound] at h
      | some account =>
          simp only [demand?, hfound, Option.map_eq_some_iff] at h
          obtain ⟨count, hcount, hsame⟩ := h
          cases hsame
          exact .served account request hfound hcount
  | drop | elsewhere => cases h

theorem told_of_no_demand (S : Supply α σ) {action : Action T α}
    (hdemand : estate.demand? action = none) (hdestroy : ∀ i, action ≠ .use i .destroy) {i : ι}
    {told : Told (T i)} (htold : estate.told S action = some ⟨i, told⟩) : told.events = [] := by
  cases action with
  | build j plan =>
      cases hfound : estate.accounts j with
      | some account => simp [Estate.told, hfound] at htold
      | none =>
          simp only [demand?, hfound, Option.map_eq_none_iff] at hdemand
          simp only [Estate.told, hfound] at htold
          cases htold
          simp only [Blueprint.build, hdemand]
  | use j request =>
      cases hfound : estate.accounts j with
      | none => simp [Estate.told, hfound] at htold
      | some account =>
          simp only [demand?, hfound, Option.map_eq_none_iff] at hdemand
          simp only [Estate.told, hfound] at htold
          cases htold
          exact (account.serve_of_no_demand S.recorded estate.world hdemand
            fun heq => hdestroy i (by rw [heq])).1
  | drop j =>
      cases hfound : estate.accounts j with
      | none => simp [Estate.told, hfound] at htold
      | some account =>
          simp only [Estate.told, hfound, Pool.drop_eq] at htold
          cases htold
          rfl
  | elsewhere => cases htold

variable [DecidableEq ι]

/-- An action that makes a pool grow reports what growth reports, and nothing else. -/
theorem told_of_demand (S : Supply α σ) {action : Action T α} {i : ι} {pool : Pool (T i) α}
    {capacity : Capacity} (hdemand : estate.demand? action = some ⟨i, pool, capacity⟩)
    (hcalm : Calm (estate.step S action).calls) :
    let growth := pool.grow S.recorded capacity estate.world
    pool.Reported capacity growth ∧
      ∃ told, estate.told S action = some ⟨i, told⟩ ∧ told.events = growth.events ∧
        ∀ failure, growth.result = .error (.refused failure) →
          (∀ discarded ∈ told.destroyed, (T i).finalise discarded = none) →
          told.result = .error (.refused failure) := by
  cases demanded_of_demand? hdemand with
  | built plan hfound hinitial =>
      simp only [Estate.step, hfound, calls_put] at hcalm
      simp only [told, hfound]
      simp only [Blueprint.build, hinitial] at hcalm ⊢
      refine ⟨Pool.grow_reported S hcalm.not_raised, _, rfl, rfl, ?_⟩
      intro failure hfailure _
      rw [hfailure]
      rfl
  | served account request hfound hcount =>
      have h := account.serve_of_demand S.recorded estate.world hcount
      simp only [Estate.step, hfound, calls_put, h.supply_eq] at hcalm
      simp only [told, hfound]
      exact ⟨Pool.grow_reported S hcalm.not_raised, _, rfl, h.events_eq, h.refused⟩

/-- What the pool `i` reports of an action. -/
def reported (S : Supply α σ) (i : ι) (estate : Estate T α σ) (action : Action T α) :
    List LogLine :=
  match estate.told S action with
  | none => []
  | some ⟨j, told⟩ => if j = i then told.events.map Event.line else []

/-- What the pool `i` reported since it was made, after one more action. Where there is no such
pool, only the action counts, because it may be the one that makes it. -/
def logAfter (S : Supply α σ) (i : ι) (estate : Estate T α σ) (earlier : List LogLine)
    (action : Action T α) : List LogLine :=
  (if (estate.accounts i).isSome then earlier else []) ++ estate.reported S i action

/-- What the pool `i` reported since it was made, after a run. -/
def log (S : Supply α σ) (i : ι) :
    Estate T α σ → List LogLine → List (Action T α) → List LogLine
  | _, earlier, [] => earlier
  | estate, earlier, action :: actions =>
    (estate.step S action).log S i (estate.logAfter S i earlier action) actions

/-- Where there is the pool `i`, its log is in order. -/
def Chronicled (estate : Estate T α σ) (i : ι) (log : List LogLine) : Prop :=
  ∀ account, estate.accounts i = some account →
    Chronicle (T i).name log account.pool.capacities

theorem accounts_step_of_ne (S : Supply α σ) (estate : Estate T α σ) {action : Action T α} {i : ι}
    (h : ¬ action.About i) : (estate.step S action).accounts i = estate.accounts i := by
  generalize hafter : estate.step S action = after
  have hstepped := hafter ▸ estate.stepped S action
  cases hstepped with
  | skipped | disturbed => rfl
  | built j | unbuilt j | served j | dropped j => exact accounts_put_of_ne _ _ _ _ (Ne.symm h)

omit [DecidableEq ι] in
/-- Only the pool that an action is about answers it. -/
theorem about_of_told (S : Supply α σ) {action : Action T α} {i : ι} {told : Told (T i)}
    (h : estate.told S action = some ⟨i, told⟩) : action.About i := by
  cases action with
  | build j plan =>
      cases hfound : estate.accounts j with
      | some account => simp [Estate.told, hfound] at h
      | none =>
          simp only [Estate.told, hfound] at h
          cases h
          rfl
  | use j request | drop j =>
      cases hfound : estate.accounts j with
      | none => simp [Estate.told, hfound] at h
      | some account =>
          simp only [Estate.told, hfound] at h
          cases h
          rfl
  | elsewhere => cases h

theorem reported_of_ne (S : Supply α σ) (estate : Estate T α σ) {action : Action T α} {i : ι}
    (h : ¬ action.About i) : estate.reported S i action = [] := by
  rw [reported]
  split
  · rfl
  · next htold =>
      refine if_neg ?_
      rintro rfl
      exact h (about_of_told S htold)

theorem Chronicled.build (S : Supply α σ) {i : ι} {plan : Blueprint α} {log : List LogLine}
    (h : estate.Chronicled i log) (hcalm : Calm (estate.step S (.build i plan)).calls) :
    (estate.step S (.build i plan)).Chronicled i (estate.logAfter S i log (.build i plan)) := by
  intro account hafter
  cases hfound : estate.accounts i with
  | some own =>
      simp only [Estate.step, hfound] at hafter
      simp only [logAfter, reported, told, hfound, List.append_nil]
      exact h account (hfound.trans hafter)
  | none =>
      simp only [Estate.step, hfound, calls_put] at hafter hcalm
      rw [accounts_put_self] at hafter
      cases hresult : (plan.build S.recorded (T i) estate.world).result with
      | error stop =>
          rw [hresult] at hafter
          cases hafter
      | ok pool =>
          rw [hresult] at hafter
          cases hafter
          have hnoted := Blueprint.build_noted S hcalm.not_raised hresult
          simp only [logAfter, reported, told, hfound]
          exact (Chronicle.nil _).append hnoted

variable [Fintype ι] [DecidableEq α]

theorem Chronicled.use (S : Supply α σ) (hbalanced : estate.Balanced) {i : ι}
    {request : Request (T i) Nat} {log : List LogLine} (h : estate.Chronicled i log)
    (hcalm : Calm (estate.step S (.use i request)).calls) :
    (estate.step S (.use i request)).Chronicled i
      (estate.logAfter S i log (.use i request)) := by
  intro account hafter
  cases hfound : estate.accounts i with
  | none =>
      simp only [Estate.step, hfound] at hafter
      cases hafter
  | some own =>
      simp only [Estate.step, hfound, calls_put] at hafter hcalm
      rw [accounts_put_self] at hafter
      cases hafter
      have hnoted := own.serve_noted S (hbalanced.fits i own hfound) request hcalm.not_raised
      simp only [logAfter, reported, told, hfound]
      exact (h own hfound).append hnoted

theorem Chronicled.step (S : Supply α σ) (hbalanced : estate.Balanced) {i : ι} {log : List LogLine}
    (h : estate.Chronicled i log) {action : Action T α}
    (hcalm : Calm (estate.step S action).calls) :
    (estate.step S action).Chronicled i (estate.logAfter S i log action) := by
  by_cases hi : action.About i
  · cases action with
    | build j plan =>
        obtain rfl : j = i := hi
        exact h.build S hcalm
    | use j request =>
        obtain rfl : j = i := hi
        exact h.use S hbalanced hcalm
    | drop j =>
        obtain rfl : j = i := hi
        intro account hafter
        cases hfound : estate.accounts j with
        | none => simp [Estate.step, hfound] at hafter
        | some own => simp [Estate.step, hfound] at hafter
    | elsewhere => exact hi.elim
  · -- the pool takes no part in the action
    intro account hafter
    rw [accounts_step_of_ne S estate hi] at hafter
    simp only [logAfter, reported_of_ne S estate hi, hafter, List.append_nil]
    exact h account hafter

theorem Chronicled.run (S : Supply α σ) (hbalanced : estate.Balanced) {i : ι}
    {earlier : List LogLine}
    (h : estate.Chronicled i earlier) {actions : List (Action T α)}
    (hcalm : Calm (estate.run S actions).calls) :
    (estate.run S actions).Chronicled i (estate.log S i earlier actions) := by
  induction actions generalizing estate earlier with
  | nil => exact h
  | cons action actions ih =>
      have hfirst := hcalm.of_suffix (suffix_run S (estate.step S action) actions)
      exact ih (hbalanced.step S action) (h.step S hbalanced hfirst) hcalm

/-- The end of all slabs reports how many there were. -/
theorem told_of_destroy (S : Supply α σ) (hbalanced : estate.Balanced) {i : ι}
    {account : Account (T i) α} (hfound : estate.accounts i = some account)
    (hcalm : Calm (estate.step S (.use i .destroy)).calls) :
    ∃ told, estate.told S (.use i .destroy) = some ⟨i, told⟩ ∧
      told.events.map Event.line =
        [⟨.debug, "released all slabs of pool",
          [("item_type", .text (T i).name), ("slab_count", .number account.pool.numSlabs)]⟩] := by
  simp only [Estate.step, hfound, calls_put] at hcalm
  simp only [told, hfound]
  have hresult := Pool.destroy_ok S (hbalanced.fits i account hfound) hcalm.not_raised
  exact ⟨_, rfl, Pool.lines_destroy_of_ok S.recorded hresult⟩

/-- In a run in which no allocator raises a fault:

* a reader of the log of a pool, who knows nothing but the lines, gets the capacities of its slabs,
  and every line has the level, the message and the named parts that are right for the slabs there
  were before it: an allocation and a release tell the number of slabs, and a failure of the list
  tells that number and one more;
* an action that makes a pool grow reports one line. It says that a slab was allocated, or that
  there was no room to list it, or that it was refused; in the last case the line gives the capacity
  that was wanted and the text of the failure, which is what the action is answered with, unless a
  finaliser raised a fault at the end of an argument;
* the end of all slabs reports one line, and all other actions report nothing. -/
theorem log_faithful (S : Supply α σ) (memory : Memory) (state : σ) (actions : List (Action T α))
    (hcalm : Calm ((start memory state).run S actions).calls) :
    (∀ i account, ((start memory state).run S actions).accounts i = some account →
      let log := (start memory state).log S i [] actions
      replay log = account.pool.capacities ∧
      ∀ before line after, log = before ++ line :: after →
        line.Accurate (T i).name (replay before)) ∧
    ∀ earlier action later, actions = earlier ++ action :: later →
      let estate := (start memory state).run S earlier
      (∀ i pool capacity, estate.demand? action = some ⟨i, pool, capacity⟩ →
        let growth := pool.grow S.recorded capacity estate.world
        pool.Reported capacity growth ∧
        ∃ told, estate.told S action = some ⟨i, told⟩ ∧ told.events = growth.events ∧
          ∀ failure, growth.result = .error (.refused failure) →
            (∀ discarded ∈ told.destroyed, (T i).finalise discarded = none) →
            told.result = .error (.refused failure)) ∧
      (∀ i account, action = .use i .destroy → estate.accounts i = some account →
        ∃ told, estate.told S action = some ⟨i, told⟩ ∧
          told.events.map Event.line =
            [⟨.debug, "released all slabs of pool",
              [("item_type", .text (T i).name),
                ("slab_count", .number account.pool.numSlabs)]⟩]) ∧
      (estate.demand? action = none → (∀ i, action ≠ .use i .destroy) →
        ∀ i told, estate.told S action = some ⟨i, told⟩ → told.events = []) ∧
      (Honest estate.calls → ∀ i account, estate.accounts i = some account →
        Word.saturatingAdd account.pool.numSlabs 1 = account.pool.numSlabs + 1) := by
  have hstart : Balanced (start memory state : Estate T α σ) := .start memory state
  refine ⟨?_, ?_⟩
  · intro i account hfound log
    have hnone : (start memory state : Estate T α σ).Chronicled i [] := nofun
    obtain ⟨hreplay, haccurate⟩ := hnone.run S hstart hcalm account hfound
    exact ⟨hreplay, haccurate⟩
  · rintro earlier action later rfl estate
    rw [run_append, run_cons] at hcalm
    have hnow : Calm (estate.step S action).calls := hcalm.of_suffix (suffix_run S _ later)
    have hbalanced : estate.Balanced := hstart.run S earlier
    refine ⟨fun i pool capacity hdemand => told_of_demand S hdemand hnow, ?_,
      fun hdemand hdestroy i told => told_of_no_demand S hdemand hdestroy, ?_⟩
    · rintro i account rfl hfound
      exact told_of_destroy S hbalanced hfound hnow
    · intro hhonest i account hfound
      exact Nat.min_eq_left (Pool.numSlabs_lt (hbalanced.spread hhonest hfound))

/-- A pool of one slot grows, cannot be given a slab that is too large, is destroyed and grows
again. -/
def grownTwice : List (Action (fun _ : Bool => Kind.pair.itemType) Collaborator) :=
  [.build true { allocator := {}, initial := some 1 },
    .use true .acquire,
    .use true .acquire,
    .use true (.grow 1152921504606846976),
    .use true .destroy,
    .use true (.insert (Kind.pair.fit [6, 7]))]

theorem log_faithful_of_grownTwice :
    let log := (start {} {}).log Host.supply true [] grownTwice
    log = [(Event.slabAllocated "[u64; 2]" 1 1).line, (Event.slabAllocated "[u64; 2]" 8 2).line,
        ⟨.debug, "failed to allocate slab for pool",
          [("item_type", .text "[u64; 2]"), ("capacity", .number 1152921504606846976),
            ("error", .text
              "failed to allocate 18446744073709551615 bytes with alignment 8")]⟩,
        (Event.slabsReleased "[u64; 2]" 2).line, (Event.slabAllocated "[u64; 2]" 8 1).line] ∧
      ∃ account, ((start {} {}).run Host.supply grownTwice).accounts true = some account ∧
        replay log = account.pool.capacities := by
  have hfound : (((start {} {}).run Host.supply grownTwice).accounts true).isSome := by
    decide +kernel
  have haccount := (Option.some_get hfound).symm
  obtain ⟨hfaithful, -⟩ := log_faithful Host.supply {} {} grownTwice (by decide +kernel)
  exact ⟨by decide +kernel, _, haccount, (hfaithful true _ haccount).1⟩

end Estate

end SlabPool
