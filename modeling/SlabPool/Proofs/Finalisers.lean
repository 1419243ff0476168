import SlabPool.Host.Collaborator
import SlabPool.Proofs.Doubling
import SlabPool.Proofs.Exhaustion
import SlabPool.Proofs.Rounds

/-!
Values that come to their end.

A pool brings a value to its end in two cases only: a value that was to be inserted and gets no
slot, and the value in an item that is removed. Values in slots that are released, given back with
their slabs or handed out anew are forgotten, and no finaliser runs for them. So the finalisers that
run can be told from the books of the clients, who know what they put into their items: `Estate.due`
is what they expect of an action, `Estate.discarded` is what happens, and over a whole run both are
the same list.

An insertion gets no slot if growth fails. It gets none either once the count of acquisitions is at
its end, although a slot is free: that slot is taken off the free list before the count is looked
at.

A finaliser can raise a fault. That of a value that found no slot changes nothing else; that of a
value in an item leaves the item where it was, held and not on the free list, and nobody else gets
it as long as it is held.

Main statement: `Estate.finalisers_accounted`.
-/

namespace SlabPool

variable {ι α σ : Type}

section

variable {T : ItemType}

/-! ### Operations that bring no value to its end -/

namespace Pool

theorem destroyed_grow (S : Supply α σ) (pool : Pool T α) (capacity : Capacity)
    (world : World σ) : (pool.grow S capacity world).destroyed = [] := by
  simp only [grow]
  split
  · rfl
  · split
    · rfl
    · rfl
    · split
      · rfl
      · rfl

theorem destroyed_acquire (S : Supply α σ) (pool : Pool T α) (world : World σ) :
    (pool.acquire S world).destroyed = [] := by
  cases hhead : pool.free.head with
  | none =>
      rw [(acquire_of_none S hhead world).2.1]
      exact pool.destroyed_grow S pool.nextGrowth world
  | some item =>
      simp only [acquire, FreeList.isEmpty, hhead]
      rfl

theorem destroyed_destroy (S : Supply α σ) (pool : Pool T α) (world : World σ) :
    (pool.destroy S world).destroyed = [] := by
  simp only [destroy]
  split
  · rfl
  · rfl

end Pool

theorem Blueprint.destroyed_build (S : Supply α σ) (plan : Blueprint α) (world : World σ) :
    (plan.build S T world).destroyed = [] := by
  simp only [build]
  split
  · rfl
  · exact Pool.destroyed_grow S _ _ world

/-! ### The books of clients -/

namespace Account

variable {account : Account T α} {request : Request T Nat}

/-- The values that come to their end with a request, by the books: that of an insertion that
failed, and the one in an item that is removed. -/
def due (account : Account T α) (answer : Except Stop (Outcome T Nat)) :
    Request T Nat → List Image
  | .insert value =>
    match answer with
    | .ok _ => []
    | .error _ => [value.val]
  | .remove item => ((account.contents item).map Subtype.val).toList
  | _ => []

theorem Covered.destroyed_eq (S : Supply α σ) {world : World σ} (h : account.Covered world.memory)
    (hvalued : account.PermitsValued request) :
    (account.serve S world request).destroyed =
      account.due (account.serve S world request).result request := by
  cases request with
  | acquire => exact account.pool.destroyed_acquire S world
  | insert value =>
      have hnone := account.pool.destroyed_acquire S world
      simp only [Account.serve, handOut, Pool.insert]
      cases hresult : (account.pool.acquire S world).result with
      | ok item => exact hnone
      | error stop =>
          simp only [hnone]
          rfl
  | remove item =>
      obtain ⟨hitem, hsome⟩ := hvalued
      obtain ⟨value, hvalue⟩ := Option.isSome_iff_exists.mp hsome
      -- what comes to its end is what lies in the item, which is what was put there
      have hload := h.load_eq hitem hvalue
      simp only [Account.serve, takeBack, Pool.remove, hload, due, hvalue]
      split
      · rfl
      · rfl
  | grow capacity => exact account.pool.destroyed_grow S capacity world
  | check =>
      simp only [Account.serve]
      split
      · rfl
      · rfl
  | destroy => exact account.pool.destroyed_destroy S world
  | release | read | write | scribble => rfl

/-! ### Items that stay held -/

theorem acquire_of_serve_takes (S : Supply α σ) {world : World σ} (htakes : request.takes = true)
    {item : Nat} (h : (account.serve S world request).result = .ok (.item item)) :
    (account.pool.acquire S world).result = .ok item := by
  cases hresult : (account.pool.acquire S world).result with
  | ok other =>
      cases request with
      | acquire | insert =>
          simp only [serve, handOut, Pool.insert, hresult] at h
          cases h
          rfl
      | release | remove | grow | check | destroy | read | write | scribble => cases htakes
  | error stop =>
      cases request with
      | acquire | insert =>
          simp only [serve, handOut, Pool.insert, hresult] at h
          cases h
      | release | remove | grow | check | destroy | read | write | scribble => cases htakes

/-- A slot that is handed out was in nobody's hands. -/
theorem Covered.fresh (S : Supply α σ) {world : World (Recorded α σ)}
    (h : account.Covered world.memory) (htakes : request.takes = true)
    (hspread : (account.serve S.recorded world request).account.pool.index.Spread) {item : Nat}
    (hresult : (account.serve S.recorded world request).result = .ok (.item item)) :
    item ∉ account.held := by
  replace hresult := acquire_of_serve_takes S.recorded htakes hresult
  rw [account.serve_pool_of_takes S.recorded world htakes] at hspread
  obtain ⟨larger, free, hwithin, hsound, -⟩ := h
  rw [← hwithin.pool_eq] at hspread hresult
  by_cases hcount : larger.pool.acquired < Word.max
  · cases hsound.acquire S hcount hspread with
    | failed stop _ herror _ _ =>
        rw [hresult] at herror
        cases herror
    | handed other _ _ hother hfresh _ _ _ _ =>
        rw [hresult] at hother
        cases hother
        exact fun hitem => hfresh (hwithin.held.subset hitem)
  · -- at the end of the count no slot is handed out, whether growth is needed or not
    have hspent : Word.max ≤ larger.pool.acquired := Nat.not_lt.mp hcount
    cases hhead : larger.pool.free.head with
    | some first =>
        rw [Pool.acquire_of_spent S.recorded hhead hspent] at hresult
        cases hresult
    | none =>
        obtain ⟨stop, hstop⟩ := Pool.error_of_spent S hspent world
        rw [Pool.acquire_of_failed S.recorded hhead hstop] at hresult
        cases hresult

/-- A slot is refused if growth fails, and if it cannot be counted. -/
theorem error_iff_of_takes (S : Supply α σ) {world : World (Recorded α σ)}
    (hbound : account.pool.acquired ≤ Word.max) (htakes : request.takes = true) :
    (∃ stop, (account.serve S.recorded world request).result = .error stop) ↔
      account.FailsToGrow S.recorded world request ∨
        account.Exhausted S.recorded world request := by
  constructor
  · intro herror
    by_cases hcount : account.pool.acquired < Word.max
    · exact .inl ((error_iff_failsToGrow S (.inl htakes) hcount).mp herror)
    · have hspent : account.pool.acquired = Word.max :=
        Nat.le_antisymm hbound (Nat.not_lt.mp hcount)
      cases hhead : account.pool.free.head with
      | some item => exact .inr ⟨htakes, (Pool.spent_iff S).mpr ⟨hspent, by simp [hhead]⟩⟩
      | none =>
          obtain ⟨stop, hstop⟩ := Pool.error_of_spent S (Nat.le_of_eq hspent.symm) world
          exact .inl ⟨_, Pool.demand?_of_none htakes hhead, stop, hstop⟩
  · rintro (hfails | hexhausted)
    · exact (serve_of_failsToGrow S hfails).1
    · exact ⟨_, account.serve_of_exhausted S hexhausted⟩

/-- An insertion that fails for want of storage ends its argument and changes nothing else. -/
theorem insert_of_failsToGrow (S : Supply α σ) {world : World (Recorded α σ)} {value : T.Value}
    (h : account.FailsToGrow S.recorded world (.insert value)) :
    let served := account.serve S.recorded world (.insert value)
    served.destroyed = [value.val] ∧
      served.account.pool.index.slabs = account.pool.index.slabs ∧
      served.account.pool.acquired = account.pool.acquired ∧
      served.account.pool.free = account.pool.free ∧ served.world.memory = world.memory := by
  intro served
  obtain ⟨⟨stop, hstop⟩, hmemory, room, -, haccount⟩ := serve_of_failsToGrow S h
  obtain ⟨reason, hreason⟩ : ∃ reason, (account.pool.acquire S.recorded world).result =
      .error reason := by
    cases hresult : (account.pool.acquire S.recorded world).result with
    | ok item =>
        simp only [serve, handOut, Pool.insert, hresult] at hstop
        cases hstop
    | error reason => exact ⟨reason, rfl⟩
  refine ⟨?_, by rw [haccount]; rfl, by rw [haccount]; rfl, by rw [haccount]; rfl, hmemory⟩
  simp only [served, serve, handOut, Pool.insert_of_error S.recorded hreason,
    account.pool.destroyed_acquire S.recorded world, List.nil_append]

/-- An insertion that cannot be counted ends its argument too, and takes a slot off the free list.
-/
theorem insert_of_exhausted (S : Supply α σ) {world : World (Recorded α σ)} {value : T.Value}
    (h : account.Exhausted S.recorded world (.insert value)) :
    let served := account.serve S.recorded world (.insert value)
    served.result = .error (.fault .countExhausted) ∧ served.destroyed = [value.val] ∧
      served.account.pool.index = account.pool.index ∧
      served.account.pool.acquired = account.pool.acquired ∧
      (∃ item, account.pool.free.head = some item ∧
        served.account.pool.free.head = world.memory.link item) ∧
      served.account.held = account.held ∧ served.world = world := by
  intro served
  obtain ⟨hcount, hhead⟩ := (Pool.spent_iff S).mp h.2
  obtain ⟨item, hitem⟩ := Option.ne_none_iff_exists'.mp hhead
  have hturn := Pool.acquire_of_spent S.recorded hitem hcount.ge world
  have hinsert : account.pool.insert S.recorded value world = _ :=
    Pool.insert_of_error S.recorded (congrArg (·.result) hturn)
  have hserved : served =
      { result := .error (.fault .countExhausted)
        destroyed := [value.val]
        world
        account := { account with pool.free := ⟨world.memory.link item⟩ } } := by
    simp only [served, serve, handOut, hinsert, hturn]
    rfl
  rw [hserved]
  exact ⟨rfl, rfl, rfl, rfl, ⟨item, hitem, rfl⟩, rfl, rfl⟩

/-- Once the count is used up, the last free slot goes to nobody, and growth has no part in it. -/
theorem Sound.insert_of_uncounted (S : Supply α σ) {world : World (Recorded α σ)} {item : Nat}
    (h : account.Sound world.memory [item]) (hcount : account.pool.acquired = Word.max)
    (value : T.Value) :
    let served := account.serve S.recorded world (.insert value)
    ¬ account.FailsToGrow S.recorded world (.insert value) ∧ served.destroyed = [value.val] ∧
      account.pool.free.head = some item ∧ served.account.pool.free.head = none := by
  intro served
  obtain ⟨hhead, hlink⟩ := h.holds
  have hspent : account.pool.Spent S.recorded world :=
    (Pool.spent_iff S).mpr ⟨hcount, by simp [hhead]⟩
  obtain ⟨-, hdestroyed, -, -, ⟨first, hfirst, hfree⟩, -, -⟩ := insert_of_exhausted S ⟨rfl, hspent⟩
  obtain rfl : first = item := Option.some.inj (hfirst.symm.trans hhead)
  refine ⟨?_, hdestroyed, hhead, hfree.trans hlink⟩
  rintro ⟨capacity, hdemand, -⟩
  rw [Pool.demand?_of_some rfl hhead] at hdemand
  cases hdemand

/-- A removal ends the value in its item. If that raises a fault, the item stays where it was. -/
theorem Covered.remove_ends (S : Supply α σ) {world : World σ} (h : account.Covered world.memory)
    {item : Nat} (hvalued : account.PermitsValued (.remove item)) :
    let served := account.serve S world (.remove item)
    ∃ value, account.contents item = some value ∧ served.destroyed = [value.val] ∧
      ∀ message, T.finalise value.val = some message →
        served.result = .error (.fault (.raised message)) ∧ served.account.pool = account.pool ∧
          served.account.held = account.held ∧ served.world = world := by
  intro served
  obtain ⟨value, hvalue⟩ := Option.isSome_iff_exists.mp hvalued.2
  have hdestroyed := h.destroyed_eq S hvalued
  simp only [due, hvalue] at hdestroyed
  refine ⟨value, hvalue, hdestroyed, ?_⟩
  intro message hmessage
  rw [← h.load_eq hvalued.1 hvalue] at hmessage
  have hturn : account.pool.remove item world =
      { result := .error (.fault (.raised message))
        destroyed := [(T.load world.memory item).val]
        world
        pool := account.pool } := by
    simp only [Pool.remove, hmessage]
  simp only [served, Account.serve, takeBack, hturn, and_true]
  rfl

end Account

end

namespace Estate

variable {T : ι → ItemType}

/-! ### Runs -/

/-- The values that come to their end with an action, with their pools. -/
def discarded (S : Supply α σ) (estate : Estate T α σ) (action : Action T α) : List (ι × Image) :=
  match estate.told S action with
  | none => []
  | some ⟨i, told⟩ => told.destroyed.map fun image => (i, image)

/-- The values that should come to their end with an action, by the books of clients. -/
def due (S : Supply α σ) (estate : Estate T α σ) : Action T α → List (ι × Image)
  | .use i request =>
    match estate.accounts i with
    | none => []
    | some account =>
      (account.due (account.serve S.recorded estate.world request).result request).map
        fun image => (i, image)
  | _ => []

theorem discarded_eq (S : Supply α σ) {estate : Estate T α σ} (hcovered : estate.Covered)
    {action : Action T α} (hvalued : estate.PermitsValued action) :
    estate.discarded S action = estate.due S action := by
  cases action with
  | build i plan =>
      cases hfound : estate.accounts i with
      | some account => simp only [discarded, told, hfound, due]
      | none =>
          simp only [discarded, told, hfound, due, Blueprint.destroyed_build]
          rfl
  | use i request =>
      cases hfound : estate.accounts i with
      | none => simp only [discarded, told, hfound, due]
      | some account =>
          simp only [discarded, told, hfound, due]
          rw [(hcovered i account hfound).destroyed_eq S.recorded (hvalued account hfound)]
  | drop i =>
      cases hfound : estate.accounts i with
      | none => simp only [discarded, told, hfound, due]
      | some account =>
          simp only [discarded, told, hfound, due, Pool.drop_eq]
          rfl
  | elsewhere => rfl

variable [DecidableEq ι]

/-- What the actions of a run yield, in order. -/
def gather {β : Type} (S : Supply α σ) (yield : Estate T α σ → Action T α → List β) :
    Estate T α σ → List (Action T α) → List β
  | _, [] => []
  | estate, action :: actions =>
    yield estate action ++ (estate.step S action).gather S yield actions

/-- An item stays held until an action on it, or the end of all slabs. -/
theorem held_run (S : Supply α σ) {estate : Estate T α σ} {i : ι} {account : Account (T i) α}
    (hfound : estate.accounts i = some account) {item : Nat} (hitem : item ∈ account.held)
    {actions : List (Action T α)} (hends : ∀ action ∈ actions, ¬ action.Ends i item) :
    ∃ holder, (estate.run S actions).accounts i = some holder ∧ item ∈ holder.held := by
  induction actions generalizing estate account with
  | nil => exact ⟨account, hfound, hitem⟩
  | cons action actions ih =>
      rw [List.forall_mem_cons] at hends
      have hnext : ∃ holder, (estate.step S action).accounts i = some holder ∧
          item ∈ holder.held := by
        cases estate.passed S i action with
        | still hsame => exact ⟨account, hsame.trans hfound, hitem⟩
        | opened plan pool _ _ hmissing => cases hmissing.symm.trans hfound
        | served own request haction hown hafter =>
            cases hfound.symm.trans hown
            refine ⟨_, hafter, Account.held_serve S.recorded estate.world hitem ?_⟩
            exact fun hrequest => hends.1 (haction ▸ ⟨rfl, hrequest⟩)
        | closed haction _ => exact absurd rfl (haction ▸ hends.1)
      obtain ⟨holder, hholder, hmem⟩ := hnext
      exact ih hholder hmem hends.2

variable [Fintype ι] [DecidableEq α]

theorem gather_discarded (S : Supply α σ) {estate : Estate T α σ} (hbalanced : estate.Balanced)
    (hcovered : estate.Covered) {actions : List (Action T α)}
    (hlawful : estate.LawfulValued S actions)
    (hhonest : Honest (estate.run S actions).calls) :
    estate.gather S (discarded S) actions = estate.gather S (due S) actions := by
  induction actions generalizing estate with
  | nil => rfl
  | cons action actions ih =>
      have hfirst := hhonest.of_suffix (suffix_run S (estate.step S action) actions)
      have hpermits := PermitsValued.permits hlawful.1
      rw [gather, gather, discarded_eq S hcovered hlawful.1,
        ih (hbalanced.step S action) (hcovered.step S hbalanced hpermits hfirst) hlawful.2 hhonest]

/-- The item is in the hands of a client, and no request for a slot is answered with it. -/
def Retains (S : Supply α σ) (estate : Estate T α σ) (i : ι) (item : Nat) : Prop :=
  ∃ holder, estate.accounts i = some holder ∧ item ∈ holder.held ∧
    ∀ request, request.takes = true → Honest (estate.step S (.use i request)).calls →
      ∀ other, (holder.serve S.recorded estate.world request).result = .ok (.item other) →
        other ≠ item

theorem Covered.retains (S : Supply α σ) {estate : Estate T α σ} (hbalanced : estate.Balanced)
    (h : estate.Covered) {i : ι} {holder : Account (T i) α}
    (hholder : estate.accounts i = some holder) {item : Nat} (hitem : item ∈ holder.held) :
    estate.Retains S i item := by
  refine ⟨holder, hholder, hitem, ?_⟩
  rintro request htakes hhonest other hother rfl
  exact (h i holder hholder).fresh S htakes (hbalanced.spread_of_use hholder hhonest) hother hitem

/-- Over a run in which clients keep their contract and remove only items with values in them, the
values that come to their end are, in order, those that clients expect to by their books: the
argument of every insertion that was answered with an error, and the value that was put last into
every item that is removed. None of the other operations brings one to its end.

An insertion is answered with an error exactly if growth fails or, with a slot at hand, the count of
acquisitions is at its end. In the first case nothing else changes, even if the end of the argument
raises a fault; in the second the slot goes off the free list. If the end of a value that is removed
raises a fault, nothing changes, and its item is handed out to nobody until its client gives it up.
-/
theorem finalisers_accounted (S : Supply α σ) (memory : Memory) (state : σ)
    (actions : List (Action T α)) (hlawful : (start memory state).LawfulValued S actions)
    (hhonest : Honest ((start memory state).run S actions).calls) :
    (start memory state).gather S (discarded S) actions =
      (start memory state).gather S (due S) actions ∧
    ∀ earlier action later, actions = earlier ++ action :: later →
      let before := (start memory state).run S earlier
      ∀ i account, before.accounts i = some account →
        (∀ value, action = .use i (.insert value) →
          let served := account.serve S.recorded before.world (.insert value)
          ((∃ stop, served.result = .error stop) ↔
            account.FailsToGrow S.recorded before.world (.insert value) ∨
              account.Exhausted S.recorded before.world (.insert value)) ∧
          (account.FailsToGrow S.recorded before.world (.insert value) →
            served.destroyed = [value.val] ∧
              served.account.pool.index.slabs = account.pool.index.slabs ∧
              served.account.pool.acquired = account.pool.acquired ∧
              served.account.pool.free = account.pool.free ∧
              served.world.memory = before.world.memory) ∧
          (account.Exhausted S.recorded before.world (.insert value) →
            served.result = .error (.fault .countExhausted) ∧ served.destroyed = [value.val] ∧
              served.account.pool.index = account.pool.index ∧
              served.account.pool.acquired = account.pool.acquired ∧
              (∃ item, account.pool.free.head = some item ∧
                served.account.pool.free.head = before.world.memory.link item) ∧
              served.account.held = account.held ∧ served.world = before.world)) ∧
        ∀ item, action = .use i (.remove item) →
          let served := account.serve S.recorded before.world (.remove item)
          ∃ value, account.contents item = some value ∧ served.destroyed = [value.val] ∧
            ∀ message, (T i).finalise value.val = some message →
              served.result = .error (.fault (.raised message)) ∧
                served.account.pool = account.pool ∧ served.world = before.world ∧
                ((∀ other ∈ later, ¬ other.Ends i item) →
                  ((start memory state).run S actions).Retains S i item) := by
  have hstart : Balanced (start memory state : Estate T α σ) := .start memory state
  refine ⟨gather_discarded S hstart (.start memory state) hlawful hhonest, ?_⟩
  rintro earlier action later rfl before i account hfound
  have hfinal := Covered.run S hstart (.start memory state) hlawful.lawful hhonest
  have hbalanced := hstart.run S (earlier ++ action :: later)
  rw [run_append, run_cons] at hhonest hfinal hbalanced ⊢
  have hbefore : Honest before.calls :=
    (hhonest.of_suffix (suffix_run S _ later)).of_suffix (before.suffix_step S action)
  obtain ⟨hearlier, hvalued, -⟩ := lawfulBy_append.mp hlawful
  have hcovered := Covered.run S hstart (.start memory state) (LawfulValued.lawful hearlier)
    hbefore i account hfound
  refine ⟨?_, ?_⟩
  · rintro value rfl served
    have hmeasured : before.Measured := Measured.run S hstart (.start memory state) earlier
    exact ⟨Account.error_iff_of_takes S (hmeasured.acquired_le i account hfound) rfl,
      Account.insert_of_failsToGrow S, Account.insert_of_exhausted S⟩
  · rintro item rfl served
    have hremove : account.PermitsValued (.remove item) := hvalued account hfound
    obtain ⟨value, hvalue, hdestroyed, hraised⟩ := hcovered.remove_ends S.recorded hremove
    refine ⟨value, hvalue, hdestroyed, ?_⟩
    intro message hmessage
    obtain ⟨hresult, hpool, hheld, hworld⟩ := hraised message hmessage
    refine ⟨hresult, hpool, hworld, ?_⟩
    intro hends
    have hnext : (before.step S (.use i (.remove item))).accounts i = some served.account :=
      accounts_step_use S hfound _
    obtain ⟨holder, hholder, hmem⟩ := held_run S hnext (hheld ▸ hremove.1) hends
    exact hfinal.retains S hbalanced hholder hmem

/-- Two values are put into a pool, and the end of the one that was written into its item raises a
fault. -/
def twoEnds : List (Action (fun _ : Bool => Kind.tracked.itemType) Collaborator) :=
  [.build true { allocator := {}, initial := some 2 },
    .use true .acquire,
    .use true (.write 4096 (Kind.tracked.fit [3, 1])),
    .use true (.insert (Kind.tracked.fit [4, 0])),
    .use true (.remove 4112),
    .use true (.remove 4096)]

theorem finalisers_accounted_of_twoEnds :
    let actions := twoEnds ++ [.use true .acquire]
    (start {} {}).gather Host.supply (discarded Host.supply) actions =
        [(true, [4, 0]), (true, [3, 1])] ∧
      ((start {} {}).run Host.supply actions).Retains Host.supply true 4096 := by
  intro actions
  have hfound : (((start {} {}).run Host.supply (twoEnds.take 5)).accounts true).isSome := by
    decide +kernel
  have hcontents : ∀ account ∈ ((start {} {}).run Host.supply (twoEnds.take 5)).accounts true,
      account.contents 4096 = some (Kind.tracked.fit [3, 1]) := by
    decide +kernel
  have hdue : (start {} {}).gather Host.supply (due Host.supply) actions =
      [(true, [4, 0]), (true, [3, 1])] := by
    decide +kernel
  have haccount := (Option.some_get hfound).symm
  obtain ⟨hgather, hremoved⟩ := finalisers_accounted Host.supply {} {} actions
    (by decide +kernel) (by decide +kernel)
  refine ⟨hgather.trans hdue, ?_⟩
  obtain ⟨-, hremove⟩ := hremoved (twoEnds.take 5) (.use true (.remove 4096))
    [.use true .acquire] rfl true _ haccount
  obtain ⟨value, hvalue, -, hraised⟩ := hremove 4096 rfl
  obtain rfl := Option.some.inj (hvalue.symm.trans (hcontents _ haccount))
  obtain ⟨-, -, -, hheld⟩ := hraised "bomb 3" (by decide)
  exact hheld (by simp [Action.Ends, Request.Ends])

/-- The end of a value is not always due to growth that fails: the argument of an insertion comes to
its end with a slot at hand, once the count is used up. -/
theorem finaliser_of_uncounted :
    let final := (start {} {}).run Host.supply (worn Word.max)
    let value := Kind.tracked.fit [5, 0]
    (start {} {}).LawfulValued Host.supply (worn Word.max ++ [.use true (.insert value)]) ∧
      Honest final.calls ∧
      ∃ account, final.accounts true = some account ∧
        ¬ account.FailsToGrow Host.supply.recorded final.world (.insert value) ∧
        let served := account.serve Host.supply.recorded final.world (.insert value)
        served.destroyed = [value.val] ∧ account.pool.free.head = some 4096 ∧
          served.account.pool.free.head = none := by
  -- the number of rounds is not to be computed with
  generalize hrounds : Word.max = count
  intro final value
  obtain ⟨-, hlawful, hhonest, account, hfound, hsound, -, hacquired⟩ := run_worn hrounds.ge
  refine ⟨lawfulBy_append.mpr ⟨hlawful, ?_, trivial⟩, hhonest, account, hfound, ?_⟩
  · exact fun other _ => ⟨trivial, trivial⟩
  · exact hsound.insert_of_uncounted Host.supply (hacquired.trans hrounds.symm) value

end Estate

end SlabPool
