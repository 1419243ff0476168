import SlabPool.Host.Collaborator
import SlabPool.Proofs.Estate
import SlabPool.Proofs.Lockstep
import SlabPool.Session.Kind

/-!
Failed growth leaves no trace.

Whatever the other actions of a run are, they cannot tell whether requests were made in between for
which growth failed. A run is taken here as a list of errands, some of which are spare: those are
the failing ones, and the run is compared with the one in which they are left out. The surroundings
need not be the same, nor need they be in the same state after a spare errand. All that is asked is
that the blocks of the other errands are answered alike in both runs, and that room in a list of
slabs is refused to none of them.

A failed request may leave more room in a list of slabs, and that is why the pools of the two runs
need not be equal. What differs with it is when the heap is asked for more room and for how much,
and nothing else (`Estate.Alike`).

Main statement: `Estate.no_trace_of_failed_growth`.
-/

namespace SlabPool

variable {ι α σ τ : Type} {T : ι → ItemType}

/-! ### Errands and what is seen of them -/

/-- An action that is carried out in a run, or one that is carried out besides. -/
structure Errand (T : ι → ItemType) (α : Type) where
  action : Action T α
  spare : Bool := false

/-- What the caller of an action is told. -/
structure Told (T : ItemType) where
  result : Except Stop (Outcome T Nat)
  events : List Event
  destroyed : List Image

/-- What an estate looks like from outside: the memory, and the pools with what clients hold of
them, without regard to the room in the lists of slabs. -/
structure View (T : ι → ItemType) (α : Type) where
  memory : Memory
  accounts : (i : ι) → Option (Account (T i) α)

/-- What is seen of an action. -/
structure Sight (T : ι → ItemType) (α : Type) where
  told : Option (Σ i, Told (T i))
  view : View T α

namespace Estate

def view (estate : Estate T α σ) : View T α where
  memory := estate.world.memory
  accounts i := (estate.accounts i).map fun account => account.withRoom 0

/-- What the caller of an action is told, unless the action does nothing. -/
def told (S : Supply α σ) (estate : Estate T α σ) : Action T α → Option (Σ i, Told (T i))
  | .build i plan =>
    match estate.accounts i with
    | some _ => none
    | none =>
      let reply := plan.build S.recorded (T i) estate.world
      some ⟨i, reply.result.map fun _ => .done, reply.events, reply.destroyed⟩
  | .use i request =>
    match estate.accounts i with
    | none => none
    | some account =>
      let served := account.serve S.recorded estate.world request
      some ⟨i, served.result, served.events, served.destroyed⟩
  | .drop i =>
    match estate.accounts i with
    | none => none
    | some account =>
      let reply := account.pool.drop S.recorded estate.world
      some ⟨i, reply.result.map fun _ => .done, reply.events, reply.destroyed⟩
  | .elsewhere _ _ => none

/-- The action is a request that fails to make its pool grow. -/
def FailsToGrow (S : Supply α σ) (estate : Estate T α σ) : Action T α → Prop
  | .use i request =>
    ∃ account ∈ estate.accounts i, account.FailsToGrow S.recorded estate.world request
  | _ => False

/-- An estate with nothing on record. -/
def fresh (memory : Memory) (accounts : (i : ι) → Option (Account (T i) α)) (state : σ) :
    Estate T α σ where
  world := { memory, supply := { state } }
  accounts

/-- The same estate with another record of calls. -/
def withCalls (estate : Estate T α σ) (calls : List (Call α)) : Estate T α σ :=
  { estate with world.supply.calls := calls }

/-! ### Estates that are alike -/

/-- Two estates differ at most in the room in the lists of slabs, and in their surroundings, which
gave the same answers so far. -/
structure Alike (estate : Estate T α σ) (estate' : Estate T α τ) : Prop where
  world : estate.world.Alike estate'.world
  accounts : ∀ i, ∃ room, estate'.accounts i =
    (estate.accounts i).map fun account => account.withRoom room

namespace Alike

variable {estate : Estate T α σ} {estate' : Estate T α τ}

theorem fresh (memory : Memory) (accounts : (i : ι) → Option (Account (T i) α)) (state : σ)
    (state' : τ) :
    (Estate.fresh memory accounts state).Alike (Estate.fresh memory accounts state') := by
  refine ⟨⟨rfl, rfl⟩, fun i => ?_⟩
  show ∃ room, accounts i = (accounts i).map fun account => account.withRoom room
  cases accounts i with
  | none => exact ⟨0, rfl⟩
  | some account => exact ⟨account.pool.index.reserved, rfl⟩

theorem accounts_none (h : estate.Alike estate') {i : ι} (hnone : estate.accounts i = none) :
    estate'.accounts i = none := by
  obtain ⟨room, hroom⟩ := h.accounts i
  rw [hroom, hnone, Option.map_none]

theorem accounts_some (h : estate.Alike estate') {i : ι} {account : Account (T i) α}
    (hfound : estate.accounts i = some account) :
    ∃ room, estate'.accounts i = some (account.withRoom room) := by
  obtain ⟨room, hroom⟩ := h.accounts i
  exact ⟨room, by rw [hroom, hfound, Option.map_some]⟩

theorem view_eq (h : estate.Alike estate') : estate'.view = estate.view := by
  have haccounts : (fun i => (estate'.accounts i).map fun account => account.withRoom 0) =
      fun i => (estate.accounts i).map fun account => account.withRoom 0 := by
    funext i
    obtain ⟨room, hroom⟩ := h.accounts i
    rw [hroom, Option.map_map]
    rfl
  rw [view, view, h.world.memory_eq, haccounts]

end Alike

/-! ### Runs with spare errands -/

variable [DecidableEq ι]

/-- Carries an errand out. The calls of a spare one are left out of the record. -/
def attend (S : Supply α σ) (estate : Estate T α σ) (errand : Errand T α) : Estate T α σ :=
  let after := estate.step S errand.action
  if errand.spare then after.withCalls estate.calls else after

def attendAll (S : Supply α σ) (estate : Estate T α σ) (errands : List (Errand T α)) :
    Estate T α σ :=
  errands.foldl (attend S) estate

/-- What is seen of the errands that are not spare, in order. -/
def sights (S : Supply α σ) : Estate T α σ → List (Errand T α) → List (Sight T α)
  | _, [] => []
  | estate, errand :: errands =>
    let rest := (estate.attend S errand).sights S errands
    if errand.spare then rest
    else ⟨estate.told S errand.action, (estate.step S errand.action).view⟩ :: rest

/-- For every spare errand, growth fails when its turn comes. -/
def SparesFail (S : Supply α σ) : Estate T α σ → List (Errand T α) → Prop
  | _, [] => True
  | estate, errand :: errands =>
    (errand.spare = true → estate.FailsToGrow S errand.action) ∧
      (estate.attend S errand).SparesFail S errands

theorem suffix_attend (S : Supply α σ) (estate : Estate T α σ) (errand : Errand T α) :
    estate.calls <:+ (estate.attend S errand).calls := by
  simp only [attend]
  split
  · exact List.suffix_rfl
  · exact estate.suffix_step S errand.action

theorem suffix_attendAll (S : Supply α σ) (estate : Estate T α σ) (errands : List (Errand T α)) :
    estate.calls <:+ (estate.attendAll S errands).calls := by
  induction errands generalizing estate with
  | nil => exact List.suffix_rfl
  | cons errand errands ih => exact (estate.suffix_attend S errand).trans (ih _)

namespace Alike

variable {estate : Estate T α σ} {estate' : Estate T α τ}

theorem put (h : estate.Alike estate') (i : ι) (room : Nat) {world : World (Recorded α σ)}
    {world' : World (Recorded α τ)} (hworld : world.Alike world')
    {account account' : Option (Account (T i) α)}
    (haccount : account' = account.map fun account => account.withRoom room) :
    (estate.put i world account).Alike (estate'.put i world' account') where
  world := hworld
  accounts := by
    intro j
    by_cases hj : j = i
    · subst hj
      exact ⟨room, by rw [accounts_put_self, accounts_put_self, haccount]⟩
    · rw [accounts_put_of_ne _ _ _ _ hj, accounts_put_of_ne _ _ _ _ hj]
      exact h.accounts j

variable {S : Supply α σ} {S' : Supply α τ} {tape : List BlockAnswer}

theorem step (h : estate.Alike estate') {action : Action T α}
    (htogether : Together tape (estate.step S action).calls (estate'.step S' action).calls) :
    (estate.step S action).Alike (estate'.step S' action) ∧
      estate'.told S' action = estate.told S action := by
  cases action with
  | build i plan =>
      cases hfound : estate.accounts i with
      | some account =>
          obtain ⟨room, hfound'⟩ := h.accounts_some hfound
          simp only [Estate.step, told, hfound, hfound']
          exact ⟨h, trivial⟩
      | none =>
          have hfound' := h.accounts_none hfound
          simp only [Estate.step, told, hfound, hfound', calls_put] at htogether ⊢
          obtain ⟨hworld, hevents, hdestroyed, room, hresult⟩ :=
            plan.build_alike h.world htogether
          rw [hresult, hevents, hdestroyed]
          cases (plan.build S.recorded (T i) estate.world).result with
          | error stop => exact ⟨h.put i room hworld rfl, rfl⟩
          | ok pool => exact ⟨h.put i room hworld rfl, rfl⟩
  | use i request =>
      cases hfound : estate.accounts i with
      | none =>
          simp only [Estate.step, told, hfound, h.accounts_none hfound]
          exact ⟨h, trivial⟩
      | some account =>
          obtain ⟨room, hfound'⟩ := h.accounts_some hfound
          simp only [Estate.step, told, hfound, hfound', calls_put] at htogether ⊢
          obtain ⟨⟨hresult, hevents, hdestroyed, hworld⟩, room', haccount⟩ :=
            Account.serve_alike request h.world htogether
          refine ⟨h.put i room' hworld (congrArg some haccount), ?_⟩
          rw [hresult, hevents, hdestroyed]
  | drop i =>
      cases hfound : estate.accounts i with
      | none =>
          simp only [Estate.step, told, hfound, h.accounts_none hfound]
          exact ⟨h, trivial⟩
      | some account =>
          obtain ⟨room, hfound'⟩ := h.accounts_some hfound
          simp only [Estate.step, told, hfound, hfound', calls_put] at htogether ⊢
          obtain ⟨hresult, hevents, hdestroyed, hworld⟩ := Pool.drop_alike h.world htogether
          refine ⟨h.put i room hworld rfl, ?_⟩
          rw [Account.pool_withRoom, hresult, hevents, hdestroyed]
  | elsewhere address word =>
      refine ⟨⟨⟨?_, h.world.answers_eq⟩, h.accounts⟩, rfl⟩
      exact congrArg (·.write address word) h.world.memory_eq

end Alike

/-- A spare errand for which growth fails makes no difference. -/
theorem Alike.spare {estate : Estate T α σ} {estate' : Estate T α τ} (h : estate.Alike estate')
    {S : Supply α σ} {action : Action T α} (hfails : estate.FailsToGrow S action) :
    ((estate.step S action).withCalls estate.calls).Alike estate' := by
  cases action with
  | build | drop | elsewhere => exact hfails.elim
  | use i request =>
      obtain ⟨account, hfound, hfails⟩ := hfails
      obtain ⟨-, hmemory, room, -, haccount⟩ := Account.serve_of_failsToGrow S hfails
      have hfound : estate.accounts i = some account := hfound
      simp only [Estate.step, hfound]
      refine ⟨⟨h.world.memory_eq.trans hmemory.symm, h.world.answers_eq⟩, fun j => ?_⟩
      show ∃ room, estate'.accounts j =
        ((estate.put i _ _).accounts j).map fun account => account.withRoom room
      by_cases hj : j = i
      · subst hj
        obtain ⟨room', hfound'⟩ := h.accounts_some hfound
        exact ⟨room', by rw [hfound', accounts_put_self, haccount]; rfl⟩
      · rw [accounts_put_of_ne _ _ _ _ hj]
        exact h.accounts j

/-- The errands that are not spare. -/
def others (errands : List (Errand T α)) : List (Errand T α) :=
  errands.filter fun errand => !errand.spare

theorem attend_of_spare (S : Supply α σ) (estate : Estate T α σ) {errand : Errand T α}
    (h : errand.spare = true) :
    estate.attend S errand = (estate.step S errand.action).withCalls estate.calls := by
  simp [attend, h]

theorem attend_of_not_spare (S : Supply α σ) (estate : Estate T α σ) {errand : Errand T α}
    (h : errand.spare = false) : estate.attend S errand = estate.step S errand.action := by
  simp [attend, h]

theorem Alike.attendAll {S : Supply α σ} {S' : Supply α τ} {tape : List BlockAnswer}
    {estate : Estate T α σ} {estate' : Estate T α τ} (h : estate.Alike estate')
    {errands : List (Errand T α)} (hspares : estate.SparesFail S errands)
    (htogether : Together tape (estate.attendAll S errands).calls
      (estate'.attendAll S' (others errands)).calls) :
    (estate.attendAll S errands).Alike (estate'.attendAll S' (others errands)) ∧
      estate'.sights S' (others errands) = estate.sights S errands := by
  induction errands generalizing estate estate' with
  | nil => exact ⟨h, rfl⟩
  | cons errand errands ih =>
      obtain ⟨hfails, hspares⟩ := hspares
      cases hspare : errand.spare with
      | true =>
          -- the other run does nothing meanwhile
          have hothers : others (errand :: errands) = others errands := by simp [others, hspare]
          have hafter : (estate.attend S errand).Alike estate' := by
            rw [attend_of_spare S estate hspare]
            exact h.spare (hfails hspare)
          rw [hothers] at htogether ⊢
          obtain ⟨hfinal, hsights⟩ := ih hafter hspares htogether
          refine ⟨hfinal, ?_⟩
          rw [hsights, sights, if_pos hspare]
      | false =>
          have hothers : others (errand :: errands) = errand :: others errands := by
            simp [others, hspare]
          rw [hothers] at htogether ⊢
          have hnow := htogether.of_suffix
            ((estate.attend S errand).suffix_attendAll S errands)
            ((estate'.attend S' errand).suffix_attendAll S' (others errands))
          rw [attend_of_not_spare S estate hspare, attend_of_not_spare S' estate' hspare] at hnow
          obtain ⟨hafter, htold⟩ := h.step hnow
          have hview := hafter.view_eq
          rw [← attend_of_not_spare S estate hspare,
            ← attend_of_not_spare S' estate' hspare] at hafter
          obtain ⟨hfinal, hsights⟩ := ih hafter hspares htogether
          refine ⟨hfinal, ?_⟩
          rw [sights, sights, hspare, hsights, htold, hview]

/-- A request for a slot, or to grow, is answered with an error exactly if growth fails, as long as
acquisitions can be counted, and leaves nothing behind then but room in the list of slabs. A run
with such failures among its errands is like the run without them: if blocks are answered alike in
both and room is refused in neither, the same is seen of all other errands and in the end. -/
theorem no_trace_of_failed_growth (S : Supply α σ) (S' : Supply α τ) (memory : Memory)
    (accounts : (i : ι) → Option (Account (T i) α)) (state : σ) (state' : τ)
    (errands : List (Errand T α))
    (hspares : (fresh memory accounts state).SparesFail S errands)
    (hroomy : Roomy ((fresh memory accounts state).attendAll S errands).calls)
    (hroomy' : Roomy ((fresh memory accounts state').attendAll S' (others errands)).calls)
    (hanswers : answers ((fresh memory accounts state').attendAll S' (others errands)).calls =
      answers ((fresh memory accounts state).attendAll S errands).calls) :
    (∀ (i : ι) (account : Account (T i) α) (world : World (Recorded α σ))
        (request : Request (T i) Nat),
      ((request.takes = true ∨ ∃ capacity, request = .grow capacity) →
        account.pool.acquired < Word.max →
        ((∃ stop, (account.serve S.recorded world request).result = .error stop) ↔
          account.FailsToGrow S.recorded world request)) ∧
      (account.FailsToGrow S.recorded world request →
        let served := account.serve S.recorded world request
        (∃ stop, served.result = .error stop) ∧ served.world.memory = world.memory ∧
          ∃ room ≥ account.pool.index.reserved, served.account = account.withRoom room)) ∧
    (fresh memory accounts state').sights S' (others errands) =
      (fresh memory accounts state).sights S errands ∧
    ((fresh memory accounts state').attendAll S' (others errands)).view =
      ((fresh memory accounts state).attendAll S errands).view := by
  refine ⟨fun i account world request => ⟨Account.error_iff_failsToGrow S,
    Account.serve_of_failsToGrow S⟩, ?_⟩
  have htogether : Together _ ((fresh memory accounts state).attendAll S errands).calls
      ((fresh memory accounts state').attendAll S' (others errands)).calls :=
    ⟨List.prefix_rfl, hanswers ▸ List.prefix_rfl, hroomy, hroomy'⟩
  obtain ⟨hfinal, hsights⟩ := (Alike.fresh memory accounts state state').attendAll hspares htogether
  exact ⟨hsights, hfinal.view_eq⟩

/-- A pool of one slot is asked for a second one twice. The first time, the heap refuses, and a slab
that would not fit into the address space is refused after that. -/
def failingBesides : List (Errand (fun _ : Bool => Kind.pair.itemType) Collaborator) :=
  [{ action := .build true { allocator := {}, initial := some 1 } },
    { action := .use true .acquire },
    { action := .use true .acquire, spare := true },
    { action := .use true (.grow 1152921504606846976), spare := true },
    { action := .use true (.insert (Kind.pair.fit [6, 7])) }]

theorem no_trace_of_failingBesides :
    let first : Estate (fun _ : Bool => Kind.pair.itemType) Collaborator Host :=
      fresh {} (fun _ => none) { heap := { failIn := some 2 } }
    let middle := first.attendAll Host.supply (failingBesides.take 2)
    (∃ account ∈ middle.accounts true, ∃ room ≥ 4,
      (account.serve Host.supply.recorded middle.world .acquire).account =
        account.withRoom room) ∧
    (first.sights Host.supply failingBesides).length = 3 ∧
    (fresh {} (fun _ => none) {}).sights Host.supply (others failingBesides) =
      first.sights Host.supply failingBesides := by
  have hspares : (fresh {} (fun _ => none) { heap := { failIn := some 2 } }).SparesFail
      Host.supply failingBesides :=
    ⟨nofun, nofun, fun _ => ⟨_, rfl, _, rfl, _, rfl⟩, fun _ => ⟨_, rfl, _, rfl, _, rfl⟩, nofun,
      trivial⟩
  obtain ⟨hatomic, hsights, -⟩ := no_trace_of_failed_growth Host.supply Host.supply {}
    (fun _ => none) { heap := { failIn := some 2 } } {} failingBesides hspares (by decide +kernel)
    (by decide +kernel) (by decide +kernel)
  obtain ⟨account, hfound, hfails⟩ := hspares.2.2.1 rfl
  obtain ⟨-, -, room, hroom, haccount⟩ := (hatomic true account _ .acquire).2 hfails
  have hreserved : account.pool.index.reserved = 4 := by
    cases hfound
    rfl
  exact ⟨⟨account, hfound, room, hreserved ▸ hroom, haccount⟩, rfl, hsights⟩

end Estate

end SlabPool
