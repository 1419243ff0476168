import SlabPool.Proofs.Account.Uncounted

/-!
Where faults come from.

Faults are raised in many places, but most of these places are never reached. A slab has a layout
when its block is asked for, and so it has one when the block is given back; a slab has slots, so
there is always a row of them to link and a first of them to hand out. What is left are the faults
of those that a pool works with: of an allocator, which the record of calls shows (`Raised`), and of
a finaliser, at the end of a value. A pool has a single fault of its own. It is raised when an item
is there to be handed out and cannot be counted any more (`Account.Exhausted`).

The lemmas take the operations one by one and say what follows from a fault in the answer. Neither
the promise of allocators nor the contract of clients has a part in any of them, except for the
check of the free slots. `Account.fault_of_serve` gathers them.
-/

namespace SlabPool

variable {T : ItemType} {α σ : Type}

/-! ### Faults on record -/

/-- The fault that an allocator raised in place of an answer. -/
def Call.fault? : Call α → Option Fault
  | allocate _ _ (.error (.fault fault)) => some fault
  | release _ (.error fault) => some fault
  | _ => none

/-- The record `after` goes on from `before`, and an allocator raised the fault in between. -/
def Raised (before after : List (Call α)) (fault : Fault) : Prop :=
  ∃ new, after = new ++ before ∧ ∃ call ∈ new, call.fault? = some fault

/-- No allocator raised a fault. -/
def Calm (calls : List (Call α)) : Prop :=
  ∀ call ∈ calls, call.fault? = none

instance (calls : List (Call α)) : Decidable (Calm calls) :=
  inferInstanceAs (Decidable (∀ call ∈ calls, _))

theorem Calm.of_suffix {before after : List (Call α)} (h : Calm after)
    (hsuffix : before <:+ after) :
    Calm before :=
  fun call hcall => h call (hsuffix.subset hcall)

theorem Calm.not_raised {before after : List (Call α)} (h : Calm after) (fault : Fault) :
    ¬ Raised before after fault := by
  rintro ⟨new, rfl, call, hcall, hfault⟩
  rw [h call (List.mem_append_left before hcall)] at hfault
  cases hfault

theorem Raised.of_suffix {before middle after : List (Call α)} {fault : Fault}
    (h : Raised middle after fault) (hsuffix : before <:+ middle) : Raised before after fault := by
  obtain ⟨new, rfl, call, hcall, hfault⟩ := h
  obtain ⟨older, rfl⟩ := hsuffix
  exact ⟨new ++ older, (List.append_assoc ..).symm, call, List.mem_append_left older hcall, hfault⟩

theorem HandBack.raised {given : List (Loan α)} {before after : List (Call α)} {fault : Fault}
    (h : HandBack given before after (.error fault)) : Raised before after fault := by
  cases h with
  | all hresult _ => cases hresult
  | halted earlier later loan other hresult _ hcalls =>
      cases hresult
      exact Raised.of_suffix ⟨[_], hcalls, _, List.mem_singleton_self _, rfl⟩
        (suffix_handedBack earlier before)

/-- An answer in other words is a failure only if the answer is. -/
theorem error_of_map {ε β γ : Type} {answer : Except ε β} {rename : β → γ} {reason : ε}
    (h : answer.map rename = .error reason) : answer = .error reason := by
  cases answer with
  | error other =>
      cases h
      rfl
  | ok value => cases h

/-! ### Operations on pools -/

theorem Slab.raised_of_allocate (S : Supply α σ) {allocator : α} {capacity : Capacity}
    {record : Recorded α σ} {fault : Fault}
    (h : (Slab.allocate S.recorded allocator T capacity record).1 = .error (.fault fault)) :
    Raised record.calls (Slab.allocate S.recorded allocator T capacity record).2.calls fault := by
  cases hlayout : Slab.layout T capacity with
  | error failure =>
      simp only [Slab.allocate, hlayout] at h
      cases h
  | ok layout =>
      obtain ⟨answer, after, hanswer, hcalls⟩ := Slab.allocate_of_layout S allocator hlayout record
      rw [hanswer] at h ⊢
      cases answer with
      | ok block => cases h
      | error stop =>
          cases h
          exact ⟨[_], hcalls, _, List.mem_singleton_self _, rfl⟩

namespace Pool

variable {pool : Pool T α} {world : World (Recorded α σ)} {fault : Fault}

theorem raised_of_grow (S : Supply α σ) {capacity : Capacity}
    (h : (pool.grow S.recorded capacity world).result = .error (.fault fault)) :
    Raised world.supply.calls (pool.grow S.recorded capacity world).world.supply.calls fault := by
  have hroom := (pool.index.reserve_recorded S world.supply).1
  rcases hreserve : pool.index.reserve S.recorded world.supply with ⟨_ | index, record⟩
  · simp only [grow, hreserve] at h
    cases h
  · rw [hreserve] at hroom
    rw [supply_grow S.recorded hreserve]
    refine (Slab.raised_of_allocate S ?_).of_suffix hroom.suffix
    rcases hanswer : Slab.allocate S.recorded pool.allocator T capacity record with
      ⟨(failure | other) | slab, after⟩
    · simp only [grow, hreserve, hanswer] at h
      cases h
    · simp only [grow, hreserve, hanswer] at h
      cases h
      rfl
    · -- a slab has slots, so there is a run to put on the free list
      simp only [grow, hreserve, hanswer, FreeList.pushRow_of_pos slab.capacity.property] at h
      cases h

/-- The pool has a slot to hand out, or can be given one, and cannot count it. -/
def Spent (S : Supply α σ) (pool : Pool T α) (world : World σ) : Prop :=
  pool.acquired = Word.max ∧
    (pool.hasFree = true ∨ (pool.grow S pool.nextGrowth world).result = .ok ())

/-- Where the count is at its end, a slot that can be handed out is a free one. -/
theorem spent_iff (S : Supply α σ) :
    pool.Spent S.recorded world ↔ pool.acquired = Word.max ∧ pool.free.head ≠ none := by
  refine and_congr_right fun hcount => ?_
  have hfree : pool.hasFree = true ↔ pool.free.head ≠ none := by
    cases hhead : pool.free.head <;> simp [hasFree, FreeList.isEmpty, hhead]
  rw [hfree]
  refine or_iff_left fun hgrown => ?_
  obtain ⟨stop, hstop⟩ := error_of_spent S (Nat.le_of_eq hcount.symm) world
  rw [hgrown] at hstop
  cases hstop

theorem fault_of_acquire (S : Supply α σ) (hbound : pool.acquired ≤ Word.max)
    (h : (pool.acquire S.recorded world).result = .error (.fault fault)) :
    Raised world.supply.calls (pool.acquire S.recorded world).world.supply.calls fault ∨
      (fault = .countExhausted ∧ pool.Spent S.recorded world) := by
  have hgrowth : ∀ stop, pool.free.head = none →
      (pool.grow S.recorded pool.nextGrowth world).result = .error stop →
      Raised world.supply.calls (pool.acquire S.recorded world).world.supply.calls fault := by
    intro stop hhead hstop
    have hturn := acquire_of_failed S.recorded hhead hstop
    rw [hturn] at h ⊢
    cases h
    exact raised_of_grow S hstop
  by_cases hcount : pool.acquired < Word.max
  · cases pool.acquire_acquisition S world hcount with
    | reused item _ hresult _ _ =>
        rw [hresult] at h
        cases h
    | grown slab _ _ hresult _ _ _ =>
        rw [hresult] at h
        cases h
    | refused reason stop hhead hstop _ _ _ => exact .inl (hgrowth reason hhead hstop)
  · have hspent : pool.acquired = Word.max := Nat.le_antisymm hbound (Nat.not_lt.mp hcount)
    cases hhead : pool.free.head with
    | some item =>
        rw [acquire_of_spent S.recorded hhead (Nat.le_of_eq hspent.symm)] at h
        cases h
        exact .inr ⟨rfl, (spent_iff S).mpr ⟨hspent, by simp [hhead]⟩⟩
    | none =>
        obtain ⟨stop, hstop⟩ := error_of_spent S (Nat.le_of_eq hspent.symm) world
        exact .inl (hgrowth stop hhead hstop)

theorem acquire_of_exhausted (S : Supply α σ) (h : pool.Spent S.recorded world) :
    (pool.acquire S.recorded world).result = .error (.fault .countExhausted) := by
  obtain ⟨hcount, hhead⟩ := (spent_iff S).mp h
  obtain ⟨item, hitem⟩ := Option.ne_none_iff_exists'.mp hhead
  rw [acquire_of_spent S.recorded hitem (Nat.le_of_eq hcount.symm)]

theorem fault_of_insert (S : Supply α σ) {value : T.Value} (hbound : pool.acquired ≤ Word.max)
    (h : (pool.insert S.recorded value world).result = .error (.fault fault)) :
    Raised world.supply.calls (pool.insert S.recorded value world).world.supply.calls fault ∨
      (fault = .countExhausted ∧ pool.Spent S.recorded world) ∨
      ∃ discarded ∈ (pool.insert S.recorded value world).destroyed, ∃ message,
        T.finalise discarded = some message ∧ fault = .raised message := by
  cases hresult : (pool.acquire S.recorded world).result with
  | ok item =>
      simp only [insert, hresult] at h
      cases h
  | error stop =>
      have hturn : pool.insert S.recorded value world = _ := insert_of_error S.recorded hresult
      rw [hturn] at h ⊢
      cases stop with
      | fault other =>
          have hsame : other = fault := by
            cases hfinalise : T.finalise value.val with
            | none => simpa [Stop.afterDiscard, hfinalise] using h
            | some message => simpa [Stop.afterDiscard, hfinalise] using h
          subst hsame
          obtain hraised | hspent := fault_of_acquire S hbound hresult
          · exact .inl hraised
          · exact .inr (.inl hspent)
      | refused failure =>
          -- growth was refused, so the fault is that of the value
          cases hfinalise : T.finalise value.val with
          | none => simp [Stop.afterDiscard, hfinalise] at h
          | some message =>
              simp only [Stop.afterDiscard, hfinalise, Except.error.injEq, Stop.fault.injEq] at h
              exact .inr (.inr ⟨value.val, by simp, message, hfinalise, h.symm⟩)

theorem fault_of_remove {item : Nat} {stop : Stop}
    (h : (pool.remove item world).result = .error stop) :
    ∃ discarded ∈ (pool.remove item world).destroyed, ∃ message,
      T.finalise discarded = some message ∧ stop = .fault (.raised message) := by
  simp only [remove] at h ⊢
  cases hfinalise : T.finalise (T.load world.memory item).val with
  | none =>
      simp only [hfinalise, release] at h
      cases h
  | some message =>
      simp only [hfinalise] at h ⊢
      cases h
      exact ⟨_, List.mem_singleton_self _, message, hfinalise, rfl⟩

theorem raised_of_destroy (S : Supply α σ) (hfits : ∀ slab ∈ pool.index.slabs, slab.Fits)
    (h : (pool.destroy S.recorded world).result = .error (.fault fault)) :
    Raised world.supply.calls (pool.destroy S.recorded world).world.supply.calls fault := by
  obtain ⟨result, hresult, hback⟩ := handBack_destroy S hfits world
  rw [hresult] at h
  cases result with
  | ok done => cases h
  | error other =>
      cases h
      exact hback.raised

end Pool

theorem Blueprint.raised_of_build (S : Supply α σ) {plan : Blueprint α}
    {world : World (Recorded α σ)} {fault : Fault}
    (h : (plan.build S.recorded T world).result = .error (.fault fault)) :
    Raised world.supply.calls (plan.build S.recorded T world).world.supply.calls fault := by
  cases hinitial : plan.initial with
  | none =>
      simp only [Blueprint.build, hinitial] at h
      cases h
  | some capacity =>
      simp only [Blueprint.build, hinitial] at h ⊢
      exact Pool.raised_of_grow S (error_of_map h)

/-! ### Requests -/

namespace Account

variable {account : Account T α} {world : World (Recorded α σ)} {request : Request T Nat}

/-- A slot is asked for, and there is one that cannot be counted. -/
def Exhausted (S : Supply α σ) (account : Account T α) (world : World σ)
    (request : Request T Nat) : Prop :=
  request.takes = true ∧ account.pool.Spent S world

theorem fault_of_serve (S : Supply α σ) {fault : Fault}
    (hfits : ∀ slab ∈ account.pool.index.slabs, slab.Fits)
    (hbound : account.pool.acquired ≤ Word.max)
    (hcheck : account.pool.check world.memory = .ok ())
    (h : (account.serve S.recorded world request).result = .error (.fault fault)) :
    Raised world.supply.calls (account.serve S.recorded world request).world.supply.calls fault ∨
      (fault = .countExhausted ∧ account.Exhausted S.recorded world request) ∨
      ∃ discarded ∈ (account.serve S.recorded world request).destroyed, ∃ message,
        T.finalise discarded = some message ∧ fault = .raised message := by
  cases request with
  | acquire =>
      obtain hraised | ⟨hfault, hspent⟩ := Pool.fault_of_acquire S hbound (error_of_map h)
      · exact .inl hraised
      · exact .inr (.inl ⟨hfault, rfl, hspent⟩)
  | insert value =>
      obtain hraised | ⟨hfault, hspent⟩ | hdiscarded :=
        Pool.fault_of_insert S hbound (error_of_map h)
      · exact .inl hraised
      · exact .inr (.inl ⟨hfault, rfl, hspent⟩)
      · exact .inr (.inr hdiscarded)
  | release item => cases h
  | remove item =>
      obtain ⟨discarded, hmem, message, hfinalise, hstop⟩ := Pool.fault_of_remove (error_of_map h)
      cases hstop
      exact .inr (.inr ⟨discarded, hmem, message, hfinalise, rfl⟩)
  | grow capacity => exact .inl (Pool.raised_of_grow S (error_of_map h))
  | check =>
      simp only [serve, hcheck] at h
      cases h
  | destroy => exact .inl (Pool.raised_of_destroy S hfits (error_of_map h))
  | read | write | scribble => cases h

theorem serve_of_exhausted (S : Supply α σ)
    (h : account.Exhausted S.recorded world request) :
    (account.serve S.recorded world request).result = .error (.fault .countExhausted) := by
  obtain ⟨htakes, hspent⟩ := h
  have hturn := Pool.acquire_of_exhausted S hspent
  cases request with
  | acquire => simp only [serve, handOut, hturn, Except.map]
  | insert value =>
      simp only [serve, handOut, Pool.insert_of_error S.recorded hturn, Except.map,
        Stop.afterDiscard]
  | release | remove | grow | check | destroy | read | write | scribble => cases htakes

end Account

end SlabPool
