import SlabPool.Host.Collaborator
import SlabPool.Proofs.Estate.Coverage
import SlabPool.Proofs.Twins.Serve
import SlabPool.Session.Kind

/-!
Pools do not notice each other.

Any number of pools are made, used and dropped in one world, and their moves are mixed in any way. A
`Move` is an action that names items by their places, so that the same move can be made in another
world, where the blocks are different ones. To each pool, the run with all others looks like one in
which only its own moves are made: the same requests are answered with the same items, values,
errors, capacities, counts and events.

The surroundings of the two runs need not have anything in common, and what is written into memory
besides can be different in each. It is only asked of the surroundings that they are honest and that
they refuse nothing: if they refused anything, they could refuse it to the one pool because of the
others.

While others move, the slots of a pool are not written into, and while it moves itself, it is one of
a pair with the pool that is alone (`Estate.Counterpart`).

Main statement: `Estate.notices_of_company`.
-/

namespace SlabPool

variable {ι α σ τ : Type} {T : ι → ItemType}

/-! ### Moves and what is noticed of them -/

/-- An action, with items named by their places. -/
inductive Move (T : ι → ItemType) (α : Type) where
  | build (i : ι) (plan : Blueprint α)
  | use (i : ι) (request : Request (T i) Place)
  | drop (i : ι)
  /-- A word is written by somebody who asks no pool for it. -/
  | elsewhere (address word : Nat)

namespace Move

/-- The move is about the pool `i`. -/
def About (i : ι) : Move T α → Prop
  | build j _ | use j _ | drop j => j = i
  | elsewhere _ _ => False

instance [DecidableEq ι] (i : ι) : (move : Move T α) → Decidable (move.About i)
  | build _ _ | use _ _ | drop _ => inferInstanceAs (Decidable (_ = _))
  | elsewhere _ _ => isFalse id

end Move

/-- What is seen of a pool that was given up. -/
def Report.gone {T : ItemType} (result : Except Stop Unit) : Report T where
  result := result.map fun () => .done
  capacities := []
  acquired := 0
  hasFree := false

/-- What is noticed of a pool that is made, or could not be made. -/
def Blueprint.notice {T : ItemType} (reply : Reply σ (Pool T α)) : Notice T where
  report :=
    match reply.result with
    | .ok pool => Account.report { pool } (.ok .done)
    | .error stop => .unmade stop
  events := reply.events
  destroyed := reply.destroyed

theorem Blueprint.notice_eq {T : ItemType} {reply : Reply (Recorded α σ) (Pool T α)}
    {reply' : Reply (Recorded α τ) (Pool T α)} {before before' : List (Call α)}
    (hconcert : reply.InConcert reply' before before')
    (hmade : (∃ stop, reply.result = .error stop ∧ reply'.result = .error stop) ∨
      ∃ pool pool', reply.result = .ok pool ∧ reply'.result = .ok pool' ∧
        Account.Paired { pool } { pool := pool' } reply.world.memory reply'.world.memory) :
    Blueprint.notice reply' = Blueprint.notice reply := by
  rw [notice, notice, hconcert.events_eq, hconcert.destroyed_eq]
  obtain ⟨stop, hresult, hresult'⟩ | ⟨pool, pool', hresult, hresult', hpaired⟩ := hmade
  · rw [hresult, hresult']
  · have hreport : Account.report { pool := pool' } (.ok .done) =
        Account.report { pool } (.ok .done) := hpaired.report_eq rfl
    rw [hresult, hresult']
    dsimp only
    rw [hreport]

namespace Estate

/-- The address that the client of the pool `i` has for an item at a place. -/
def resolve (estate : Estate T α σ) (i : ι) (place : Place) : Nat :=
  match estate.accounts i with
  | none => 0
  | some account => account.resolve place

theorem resolve_of_some {estate : Estate T α σ} {i : ι} {account : Account (T i) α}
    (h : estate.accounts i = some account) : estate.resolve i = account.resolve := by
  funext place
  simp only [resolve, h]

def action (estate : Estate T α σ) : Move T α → Action T α
  | .build i plan => .build i plan
  | .use i request => .use i (request.map (estate.resolve i))
  | .drop i => .drop i
  | .elsewhere address word => .elsewhere address word

theorem about_action (estate : Estate T α σ) (move : Move T α) (i : ι) :
    (estate.action move).About i ↔ move.About i := by
  cases move <;> rfl

/-- The contract kept at one move. Whoever writes a word without asking a pool keeps out of the
slots of all pools. -/
def PermitsAt (estate : Estate T α σ) : Move T α → Prop
  | .use i request => ∀ account ∈ estate.accounts i, account.PermitsAt request
  | .elsewhere address _ => estate.Outside address
  | .build _ _ | .drop _ => True

instance [Fintype ι] (estate : Estate T α σ) (move : Move T α) :
    Decidable (estate.PermitsAt move) :=
  match move with
  | .use _ _ => inferInstanceAs (Decidable (∀ account ∈ _, _))
  | .elsewhere _ _ => inferInstanceAs (Decidable (Outside _ _))
  | .build _ _ | .drop _ => isTrue trivial

theorem PermitsAt.permits {estate : Estate T α σ} {move : Move T α} (h : estate.PermitsAt move) :
    estate.Permits (estate.action move) := by
  cases move with
  | build | drop => trivial
  | elsewhere => exact h
  | use i request =>
      intro account hfound
      rw [resolve_of_some hfound]
      exact (h account hfound).1

/-- What is noticed of a move, and of which pool. A move that does nothing is not noticed. -/
def noticed (S : Supply α σ) (estate : Estate T α σ) : Move T α → Option (Σ i, Notice (T i))
  | .build i plan =>
    match estate.accounts i with
    | some _ => none
    | none => some ⟨i, Blueprint.notice (plan.build S.recorded (T i) estate.world)⟩
  | .use i request =>
    match estate.accounts i with
    | none => none
    | some account =>
      some ⟨i, (account.serve S.recorded estate.world (request.map account.resolve)).notice⟩
  | .drop i =>
    match estate.accounts i with
    | none => none
    | some account =>
      let reply := account.pool.drop S.recorded estate.world
      some ⟨i, .gone reply.result, reply.events, reply.destroyed⟩
  | .elsewhere _ _ => none

/-- A move is noticed of the pool that it is about. -/
theorem about_of_noticed {S : Supply α σ} {estate : Estate T α σ} {move : Move T α}
    {notice : Σ i, Notice (T i)} (h : estate.noticed S move = some notice) :
    move.About notice.1 := by
  cases move with
  | build i plan =>
      cases hfound : estate.accounts i with
      | some account => simp [noticed, hfound] at h
      | none =>
          simp only [noticed, hfound, Option.some.injEq] at h
          exact h ▸ rfl
  | use i request | drop i =>
      cases hfound : estate.accounts i with
      | none => simp [noticed, hfound] at h
      | some account =>
          simp only [noticed, hfound, Option.some.injEq] at h
          exact h ▸ rfl
  | elsewhere => cases h

variable [DecidableEq ι]

/-- Of one pool, only its own moves are noticed. -/
theorem filter_noticed (S : Supply α σ) (estate : Estate T α σ) (move : Move T α) (i : ι) :
    (estate.noticed S move).toList.filter (·.1 = i) =
      if move.About i then (estate.noticed S move).toList else [] := by
  cases hnotice : estate.noticed S move with
  | none => simp
  | some notice =>
      have habout : notice.1 = i ↔ move.About i := by
        have hown := about_of_noticed hnotice
        cases move with
        | build j | use j | drop j => exact ⟨hown.trans, hown.symm.trans⟩
        | elsewhere => exact hown.elim
      simp [List.filter_cons, habout]

def move (S : Supply α σ) (estate : Estate T α σ) (move : Move T α) : Estate T α σ :=
  estate.step S (estate.action move)

def moveAll (S : Supply α σ) (estate : Estate T α σ) (moves : List (Move T α)) : Estate T α σ :=
  moves.foldl (Estate.move S) estate

/-- What is noticed of a series of moves, with the pools it is noticed of. -/
def notices (S : Supply α σ) : Estate T α σ → List (Move T α) → List (Σ i, Notice (T i))
  | _, [] => []
  | estate, move :: moves =>
    (estate.noticed S move).toList ++ (estate.move S move).notices S moves

/-- The contract kept at every move. -/
def LawfulAt (S : Supply α σ) (estate : Estate T α σ) : List (Move T α) → Prop
  | [] => True
  | move :: moves => estate.PermitsAt move ∧ (estate.move S move).LawfulAt S moves

instance decidableLawfulAt [Fintype ι] (S : Supply α σ) :
    (estate : Estate T α σ) → (moves : List (Move T α)) → Decidable (estate.LawfulAt S moves)
  | _, [] => isTrue trivial
  | estate, move :: moves =>
    have := decidableLawfulAt S (estate.move S move) moves
    inferInstanceAs (Decidable (_ ∧ _))

theorem suffix_moveAll (S : Supply α σ) (estate : Estate T α σ) (moves : List (Move T α)) :
    estate.calls <:+ (estate.moveAll S moves).calls := by
  induction moves generalizing estate with
  | nil => exact List.suffix_rfl
  | cons move moves ih => exact (estate.suffix_step S (estate.action move)).trans (ih _)

theorem moveAll_append (S : Supply α σ) (estate : Estate T α σ) (moves more : List (Move T α)) :
    estate.moveAll S (moves ++ more) = (estate.moveAll S moves).moveAll S more :=
  List.foldl_append

theorem notices_append (S : Supply α σ) (estate : Estate T α σ) (moves more : List (Move T α)) :
    estate.notices S (moves ++ more) =
      estate.notices S moves ++ (estate.moveAll S moves).notices S more := by
  induction moves generalizing estate with
  | nil => rfl
  | cons move moves ih =>
      rw [List.cons_append, notices, notices, ih, List.append_assoc]
      rfl

/-! ### A pool alone in the world -/

/-- The move is about the pool `i`, or a word is written that lies in no slot. -/
def Solo (estate : Estate T α σ) (i : ι) : Move T α → Prop
  | .elsewhere address _ => estate.Outside address
  | .build j _ | .use j _ | .drop j => j = i

instance [Fintype ι] (estate : Estate T α σ) (i : ι) (move : Move T α) :
    Decidable (estate.Solo i move) :=
  match move with
  | .elsewhere _ _ => inferInstanceAs (Decidable (Outside _ _))
  | .build _ _ | .use _ _ | .drop _ => inferInstanceAs (Decidable (_ = _))

/-- Of all pools, the pool `i` is the only one that moves. -/
def Alone (S : Supply α σ) (i : ι) : Estate T α σ → List (Move T α) → Prop
  | _, [] => True
  | estate, move :: moves => estate.Solo i move ∧ Alone S i (estate.move S move) moves

instance decidableAlone [Fintype ι] (S : Supply α σ) (i : ι) :
    (estate : Estate T α σ) → (moves : List (Move T α)) → Decidable (Alone S i estate moves)
  | _, [] => isTrue trivial
  | estate, move :: moves =>
    have := decidableAlone S i (estate.move S move) moves
    inferInstanceAs (Decidable (_ ∧ _))

theorem alone_append {S : Supply α σ} {i : ι} {estate : Estate T α σ}
    {moves more : List (Move T α)} :
    Alone S i estate (moves ++ more) ↔
      Alone S i estate moves ∧ Alone S i (estate.moveAll S moves) more := by
  induction moves generalizing estate with
  | nil => exact ⟨fun h => ⟨trivial, h⟩, And.right⟩
  | cons move moves ih => exact (and_congr_right fun _ => ih).trans and_assoc.symm

/-! ### The same pool, in company and alone -/

/-- The pool `i` of the second estate is there if that of the first one is, and they are a pair. -/
structure Counterpart (i : ι) (estate : Estate T α σ) (alone : Estate T α τ) : Prop where
  missing : estate.accounts i = none → alone.accounts i = none
  paired : ∀ account, estate.accounts i = some account →
    ∃ account', alone.accounts i = some account' ∧
      account.Paired account' estate.world.memory alone.world.memory

namespace Counterpart

variable {i : ι} {estate : Estate T α σ} {alone : Estate T α τ}

theorem put_none (world : World (Recorded α σ)) (world' : World (Recorded α τ)) :
    Counterpart i (estate.put i world none) (alone.put i world' none) where
  missing _ := accounts_put_self ..
  paired := by
    intro account hfound
    rw [accounts_put_self] at hfound
    cases hfound

theorem put_some {world : World (Recorded α σ)} {world' : World (Recorded α τ)}
    {account account' : Account (T i) α}
    (h : account.Paired account' world.memory world'.memory) :
    Counterpart i (estate.put i world (some account)) (alone.put i world' (some account')) where
  missing := by
    intro hmissing
    rw [accounts_put_self] at hmissing
    cases hmissing
  paired := by
    intro other hfound
    rw [accounts_put_self] at hfound
    cases hfound
    exact ⟨account', accounts_put_self .., h⟩

variable [Fintype ι] [DecidableEq α] {S : Supply α σ} {S' : Supply α τ}

/-- Nothing happens to a pool while another one moves. -/
theorem move_other (h : Counterpart i estate alone) (hbalanced : estate.Balanced)
    (hcovered : estate.Covered) {move : Move T α} (hi : ¬ move.About i)
    (hpermits : estate.PermitsAt move) (hhonest : Honest (estate.move S move).calls) :
    Counterpart i (estate.move S move) alone := by
  have habout : ¬ (estate.action move).About i := fun habout =>
    hi ((estate.about_action move i).mp habout)
  obtain ⟨hsame, hkeeps⟩ := hcovered.keeps_step S hbalanced hpermits.permits hhonest habout
  have hsame : (estate.move S move).accounts i = estate.accounts i := hsame
  refine ⟨fun hmissing => h.missing (hsame ▸ hmissing), ?_⟩
  intro account hfound
  rw [hsame] at hfound
  obtain ⟨account', hfound', hpaired⟩ := h.paired account hfound
  rw [slots_of_some hfound] at hkeeps
  exact ⟨account', hfound', hpaired.congr hkeeps fun item _ => .refl item _⟩

/-- Words that are written outside its slots are nothing to the pool that is alone. -/
theorem idle (h : Counterpart i estate alone) (hbalanced' : alone.Balanced)
    {quiet : List (Move T α)} (hquiet : ∀ move ∈ quiet, ¬ move.About i)
    (halone : Alone S' i alone quiet) (hhonest' : Honest alone.calls) :
    Counterpart i estate (alone.moveAll S' quiet) ∧ (alone.moveAll S' quiet).Balanced ∧
      alone.notices S' quiet = [] := by
  induction quiet generalizing alone with
  | nil => exact ⟨h, hbalanced', rfl⟩
  | cons move quiet ih =>
      obtain ⟨hsolo, halone⟩ := halone
      have hfirst := hquiet move List.mem_cons_self
      have hlater := fun other hother => hquiet other (List.mem_cons_of_mem move hother)
      cases move with
      | build | use | drop => exact absurd hsolo hfirst
      | elsewhere address word =>
          have hnext := hbalanced'.step S' (.elsewhere address word)
          refine ih ⟨h.missing, ?_⟩ hnext hlater halone hhonest'
          intro account hfound
          obtain ⟨account', hfound', hpaired⟩ := h.paired account hfound
          have hkeeps := hbalanced'.keeps_write hhonest' hsolo word i
          rw [slots_of_some hfound'] at hkeeps
          exact ⟨account', hfound', hpaired.congr (fun item _ => .refl item _) hkeeps⟩

/-! ### A pool moves itself -/

section Own

variable (h : Counterpart i estate alone) (hbalanced : estate.Balanced)
  (hbalanced' : alone.Balanced)
include h hbalanced hbalanced'

theorem build {plan : Blueprint α}
    (hhonest : Honest (estate.move S (.build i plan)).calls)
    (hhonest' : Honest (alone.move S' (.build i plan)).calls)
    (hgranted : Granted (estate.move S (.build i plan)).calls)
    (hgranted' : Granted (alone.move S' (.build i plan)).calls) :
    alone.noticed S' (.build i plan) = estate.noticed S (.build i plan) ∧
      Counterpart i (estate.move S (.build i plan)) (alone.move S' (.build i plan)) := by
  cases hfound : estate.accounts i with
  | some account =>
      obtain ⟨account', hfound', hpaired⟩ := h.paired account hfound
      simp only [noticed, Estate.move, action, step, hfound, hfound']
      exact ⟨trivial, h⟩
  | none =>
      have hfound' := h.missing hfound
      have hspread := hbalanced.spread_of_build hfound hhonest
      have hspread' := hbalanced'.spread_of_build hfound' hhonest'
      simp only [Estate.move, action, step, hfound, hfound', calls_put] at hgranted hgranted'
      obtain ⟨tape, rest, rest', hleft, hright⟩ := hgranted.exists_heard hgranted'
        (plan.suffix_build S estate.world) (plan.suffix_build S' alone.world)
      obtain ⟨hconcert, hmade⟩ :=
        Account.paired_build plan hspread hspread' hleft hright
      have hnotice := Blueprint.notice_eq hconcert hmade
      refine ⟨?_, ?_⟩
      · simp only [noticed, hfound, hfound', hnotice]
      · simp only [Estate.move, action, step, hfound, hfound']
        obtain ⟨stop, hresult, hresult'⟩ | ⟨pool, pool', hresult, hresult', hpaired⟩ := hmade
        · rw [hresult, hresult']
          exact put_none _ _
        · rw [hresult, hresult']
          exact put_some hpaired

theorem use {request : Request (T i) Place} (hpermits : estate.PermitsAt (.use i request))
    (hhonest : Honest (estate.move S (.use i request)).calls)
    (hhonest' : Honest (alone.move S' (.use i request)).calls)
    (hgranted : Granted (estate.move S (.use i request)).calls)
    (hgranted' : Granted (alone.move S' (.use i request)).calls) :
    alone.noticed S' (.use i request) = estate.noticed S (.use i request) ∧
      Counterpart i (estate.move S (.use i request)) (alone.move S' (.use i request)) := by
  cases hfound : estate.accounts i with
  | none =>
      have hfound' := h.missing hfound
      simp only [noticed, Estate.move, action, step, hfound, hfound']
      exact ⟨trivial, h⟩
  | some account =>
      obtain ⟨account', hfound', hpaired⟩ := h.paired account hfound
      have hbefore := hhonest.of_suffix (estate.suffix_step S _)
      have hbefore' := hhonest'.of_suffix (alone.suffix_step S' _)
      have hspread := hbalanced.spread_of_use hfound hhonest
      have hspread' := hbalanced'.spread_of_use hfound' hhonest'
      simp only [Estate.move, action, step, hfound, hfound', calls_put, resolve_of_some hfound,
        resolve_of_some hfound'] at hgranted hgranted' hspread hspread'
      obtain ⟨tape, rest, rest', hleft, hright⟩ := hgranted.exists_heard hgranted'
        (account.suffix_serve S estate.world _) (account'.suffix_serve S' alone.world _)
      obtain ⟨hnotice, -, hafter⟩ := hpaired.serve request (hpermits account hfound)
        (hbalanced.spread hbefore hfound) (hbalanced'.spread hbefore' hfound') hspread hspread'
        hleft hright
      simp only [noticed, Estate.move, action, step, hfound, hfound', resolve_of_some hfound,
        resolve_of_some hfound', hnotice]
      exact ⟨trivial, put_some hafter⟩

omit hbalanced hbalanced' [Fintype ι] [DecidableEq α] in
theorem drop (hgranted : Granted (estate.move S (.drop i)).calls)
    (hgranted' : Granted (alone.move S' (.drop i)).calls) :
    alone.noticed S' (.drop i) = estate.noticed S (.drop i) ∧
      Counterpart i (estate.move S (.drop i)) (alone.move S' (.drop i)) := by
  cases hfound : estate.accounts i with
  | none =>
      have hfound' := h.missing hfound
      simp only [noticed, Estate.move, action, step, hfound, hfound']
      exact ⟨trivial, h⟩
  | some account =>
      obtain ⟨account', hfound', hpaired⟩ := h.paired account hfound
      simp only [Estate.move, action, step, hfound, calls_put, Pool.drop_eq] at hgranted
      simp only [Estate.move, action, step, hfound', calls_put, Pool.drop_eq] at hgranted'
      obtain ⟨tape, rest, rest', hleft, hright⟩ := hgranted.exists_heard hgranted'
        (account.pool.suffix_destroy S estate.world) (account'.pool.suffix_destroy S' alone.world)
      obtain ⟨hresult, -, -⟩ := hpaired.sameBuild.destroy hleft hright
      simp only [noticed, Estate.move, action, step, hfound, hfound', Pool.drop_eq, hresult]
      exact ⟨trivial, put_none _ _⟩

end Own

/-- When a pool moves, the same is noticed of it whether it is alone or in company. -/
theorem move_own (h : Counterpart i estate alone) (hbalanced : estate.Balanced)
    (hbalanced' : alone.Balanced) {move : Move T α} (hi : move.About i)
    (hpermits : estate.PermitsAt move) (hhonest : Honest (estate.move S move).calls)
    (hhonest' : Honest (alone.move S' move).calls) (hgranted : Granted (estate.move S move).calls)
    (hgranted' : Granted (alone.move S' move).calls) :
    alone.noticed S' move = estate.noticed S move ∧
      Counterpart i (estate.move S move) (alone.move S' move) := by
  cases move with
  | build j plan =>
      obtain rfl : j = i := hi
      exact h.build hbalanced hbalanced' hhonest hhonest' hgranted hgranted'
  | use j request =>
      obtain rfl : j = i := hi
      exact h.use hbalanced hbalanced' hpermits hhonest hhonest' hgranted hgranted'
  | drop j =>
      obtain rfl : j = i := hi
      exact h.drop hgranted hgranted'
  | elsewhere => exact hi.elim

/-! ### Runs -/

theorem notices_eq (h : Counterpart i estate alone) (hbalanced : estate.Balanced)
    (hcovered : estate.Covered) (hbalanced' : alone.Balanced) {moves own : List (Move T α)}
    (hlawful : estate.LawfulAt S moves) (hhonest : Honest (estate.moveAll S moves).calls)
    (hgranted : Granted (estate.moveAll S moves).calls)
    (hown : own.filter (·.About i) = moves.filter (·.About i)) (halone : Alone S' i alone own)
    (hhonest' : Honest (alone.moveAll S' own).calls)
    (hgranted' : Granted (alone.moveAll S' own).calls) :
    alone.notices S' own = (estate.notices S moves).filter (·.1 = i) := by
  induction moves generalizing estate alone own with
  | nil =>
      have hquiet := List.filter_eq_nil_iff.mp hown
      have hbefore' := hhonest'.of_suffix (alone.suffix_moveAll S' own)
      exact (h.idle hbalanced' (by simpa using hquiet) halone hbefore').2.2
  | cons move moves ih =>
      obtain ⟨hpermits, hlawful⟩ := hlawful
      have hlater := (estate.move S move).suffix_moveAll S moves
      have hnow := hhonest.of_suffix hlater
      have hnext := hbalanced.step S (estate.action move)
      have hcovered' := hcovered.step S hbalanced hpermits.permits hnow
      rw [notices, List.filter_append, filter_noticed]
      by_cases hi : move.About i
      · rw [List.filter_cons_of_pos (by simpa using hi)] at hown
        obtain ⟨quiet, rest, rfl, hquiet, -, hrest⟩ := List.filter_eq_cons_iff.mp hown
        rw [alone_append] at halone
        rw [moveAll_append] at hhonest' hgranted'
        -- nothing is noticed in the other run until the same move is made
        have hmiddle := (alone.moveAll S' quiet).suffix_moveAll S' (move :: rest)
        have hbefore' := hhonest'.of_suffix ((alone.suffix_moveAll S' quiet).trans hmiddle)
        obtain ⟨h, hbalanced', hnone⟩ :=
          h.idle hbalanced' (by simpa using hquiet) halone.1 hbefore'
        have hlater' := ((alone.moveAll S' quiet).move S' move).suffix_moveAll S' rest
        obtain ⟨hnotice, hafter⟩ := h.move_own hbalanced hbalanced' hi hpermits hnow
          (hhonest'.of_suffix hlater') (hgranted.of_suffix hlater) (hgranted'.of_suffix hlater')
        have hnotices := ih hafter hnext hcovered' (hbalanced'.step S' _) hlawful hhonest hgranted
          hrest halone.2.2 hhonest' hgranted'
        rw [notices_append, hnone, List.nil_append, notices, hnotice, hnotices, if_pos hi]
      · -- the move is left out of the other run, and so is what is noticed of it
        rw [List.filter_cons_of_neg (by simpa using hi)] at hown
        have hafter := h.move_other hbalanced hcovered hi hpermits hnow
        have hnotices := ih hafter hnext hcovered' hbalanced' hlawful hhonest hgranted hown halone
          hhonest' hgranted'
        rw [hnotices, if_neg hi, List.nil_append]

end Counterpart

/-- What is noticed of each pool is what is noticed of it when it is alone in another world and
makes the same moves, if clients keep their contract and nothing is refused in either. In both,
words are written outside the slots of pools now and then. -/
theorem notices_of_company [Fintype ι] [DecidableEq α] (S : Supply α σ) (S' : Supply α τ)
    (memory memory' : Memory) (state : σ) (state' : τ) (moves : List (Move T α))
    (hlawful : (start memory state : Estate T α σ).LawfulAt S moves)
    (hhonest : Honest ((start memory state : Estate T α σ).moveAll S moves).calls)
    (hgranted : Granted ((start memory state : Estate T α σ).moveAll S moves).calls) (i : ι)
    (own : List (Move T α)) (hown : own.filter (·.About i) = moves.filter (·.About i))
    (halone : Alone S' i (start memory' state' : Estate T α τ) own)
    (hhonest' : Honest ((start memory' state' : Estate T α τ).moveAll S' own).calls)
    (hgranted' : Granted ((start memory' state' : Estate T α τ).moveAll S' own).calls) :
    ((start memory state : Estate T α σ).notices S moves).filter (·.1 = i) =
      (start memory' state' : Estate T α τ).notices S' own := by
  have hcounterpart : Counterpart i (start memory state : Estate T α σ)
      (start memory' state' : Estate T α τ) := ⟨fun _ => rfl, nofun⟩
  exact (hcounterpart.notices_eq (.start memory state) (.start memory state)
    (.start memory' state') hlawful hhonest hgranted hown halone hhonest' hgranted').symm

/-- Two pools take turns. One of them is destroyed and dropped while the other one grows, and the
blocks it gives back are written over. -/
def inTurns : List (Move (fun _ : Bool => Kind.pair.itemType) Collaborator) :=
  [.build true { allocator := {}, initial := some 1 },
    .build false { allocator := {}, initial := some 1 },
    .use true (.insert (Kind.pair.fit [1, 2])),
    .use false .acquire,
    .use true .destroy,
    .elsewhere 4096 4096,
    .use false (.insert (Kind.pair.fit [3, 4])),
    .use true .acquire,
    .use false (.read ⟨1, 0⟩),
    .drop true,
    .use false .check]

/-- The same moves of one of them, in a memory of which other words are written. -/
def byItself : List (Move (fun _ : Bool => Kind.pair.itemType) Collaborator) :=
  .elsewhere 4104 7 :: inTurns.filter (·.About false)

theorem notices_of_inTurns :
    let both := (start {} {} : Estate _ _ Host).notices Host.supply inTurns
    both.map (·.1) = [true, false, true, false, true, false, true, false, true, false] ∧
      both.filter (·.1 = false) =
        (start {} {} : Estate _ _ Host).notices Host.supply byItself := by
  intro both
  exact ⟨by decide +kernel, notices_of_company Host.supply Host.supply {} {} {} {} inTurns
    (by decide +kernel) (by decide +kernel) (by decide +kernel) false byItself rfl
    (by decide +kernel) (by decide +kernel) (by decide +kernel)⟩

end Estate

end SlabPool
