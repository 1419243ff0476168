import SlabPool.Host.Collaborator
import SlabPool.Proofs.Twins.Serve
import SlabPool.Session.Kind

/-!
A pool that was destroyed is a new one.

Nothing is assumed of the pool that is destroyed. Its free list may lead round in a circle or out of
its slabs, and its links may have been written over. If the allocator takes all blocks back, the
pool is the one that a blueprint with the same allocator makes. What is left to say is that the two
cannot be told apart later, although the memory they are used in is not the same, and neither are
the blocks that they are lent: blocks can be recycled ones, with links of former pools still in
them.

Requests are made on occasions, before each of which others have their way with the memory and the
surroundings. The two runs need not agree on what others do, nor on where blocks lie. All that they
have in common are the requests and the verdicts of the surroundings.

Main statement: `Pool.renewed_of_destroy`.
-/

namespace SlabPool

variable {T : ItemType} {α σ τ : Type}

/-- The same world, where calls are recorded from now on. -/
def World.onRecord (world : World σ) : World (Recorded α σ) where
  memory := world.memory
  supply := { state := world.supply }

namespace Account

/-- What is noticed of a series of requests, and what becomes of the world. -/
def sequel (S : Supply α σ) : Account T α → World (Recorded α σ) → List (Occasion T σ) →
    List (Notice T) × World (Recorded α σ)
  | _, world, [] => ([], world)
  | account, world, occasion :: occasions =>
    let served := account.attend S world occasion
    let rest := served.account.sequel S served.world occasions
    (served.notice :: rest.1, rest.2)

theorem suffix_sequel (S : Supply α σ) (account : Account T α) (world : World (Recorded α σ))
    (occasions : List (Occasion T σ)) :
    world.supply.calls <:+ (account.sequel S world occasions).2.supply.calls := by
  induction occasions generalizing account world with
  | nil => exact List.suffix_rfl
  | cons occasion occasions ih =>
      exact (account.suffix_attend S world occasion).trans (ih _ _)

/-! ### Runs -/

/-- On one occasion, the two of a pair are answered alike, whatever others do to each of them. -/
theorem Paired.attend {S : Supply α σ} {S' : Supply α τ} {account account' : Account T α}
    {world : World (Recorded α σ)} {world' : World (Recorded α τ)}
    (h : account.Paired account' world.memory world'.memory) {occasion : Occasion T σ}
    {occasion' : Occasion T τ} (hrequest : occasion'.request = occasion.request)
    (hpermits : account.PermitsAt occasion.request)
    (hkeeps : ∀ item ∈ account.pool.index.slots,
      T.Keeps item world.memory (occasion.memory world.memory))
    (hkeeps' : ∀ item ∈ account'.pool.index.slots,
      T.Keeps item world'.memory (occasion'.memory world'.memory))
    (hspread : account.pool.index.Spread) (hspread' : account'.pool.index.Spread)
    (hafter : (account.attend S world occasion).account.pool.index.Spread)
    (hafter' : (account'.attend S' world' occasion').account.pool.index.Spread)
    {tape rest rest' : List Verdict}
    (hleft : Heard tape rest world.supply.calls
      (account.attend S world occasion).world.supply.calls)
    (hright : Heard tape rest' world'.supply.calls
      (account'.attend S' world' occasion').world.supply.calls) :
    let served := account.attend S world occasion
    let served' := account'.attend S' world' occasion'
    served'.notice = served.notice ∧
      Echo world.supply.calls served.world.supply.calls world'.supply.calls
        served'.world.supply.calls ∧
      served.account.Paired served'.account served.world.memory served'.world.memory := by
  simp only [Account.attend, hrequest] at hafter' hright ⊢
  exact Paired.serve (h.congr hkeeps hkeeps') occasion.request hpermits hspread hspread' hafter
    hafter' hleft hright

/-- As long as they are used alike, nobody can tell the two of a pair apart. -/
theorem Paired.sequel_eq [DecidableEq α] {S : Supply α σ} {S' : Supply α τ}
    {account account' : Account T α}
    {world : World (Recorded α σ)} {world' : World (Recorded α τ)}
    (h : account.Paired account' world.memory world'.memory)
    (hbacked : account.Backed world.supply.calls) (hbacked' : account'.Backed world'.supply.calls)
    {occasions : List (Occasion T σ)} {occasions' : List (Occasion T τ)}
    (hrequests : occasions'.map (·.request) = occasions.map (·.request))
    (hlawful : account.LawfulAt S world occasions) (hspared : account.Spared S world occasions)
    (hspared' : account'.Spared S' world' occasions')
    (hhonest : Honest (account.sequel S world occasions).2.supply.calls)
    (hhonest' : Honest (account'.sequel S' world' occasions').2.supply.calls)
    {tape rest rest' : List Verdict}
    (hleft : Heard tape rest world.supply.calls
      (account.sequel S world occasions).2.supply.calls)
    (hright : Heard tape rest' world'.supply.calls
      (account'.sequel S' world' occasions').2.supply.calls) :
    (account'.sequel S' world' occasions').1 = (account.sequel S world occasions).1 ∧
      Echo world.supply.calls (account.sequel S world occasions).2.supply.calls
        world'.supply.calls (account'.sequel S' world' occasions').2.supply.calls := by
  induction occasions generalizing account account' world world' occasions' tape with
  | nil =>
      obtain rfl := List.map_eq_nil_iff.mp hrequests
      exact ⟨rfl, .refl _ _⟩
  | cons occasion occasions ih =>
      obtain ⟨occasion', occasions', rfl, hrequest, hrequests⟩ := List.map_eq_cons_iff.mp hrequests
      obtain ⟨hpermits, hlawful⟩ := hlawful
      obtain ⟨hkeeps, hspared⟩ := hspared
      obtain ⟨hkeeps', hspared'⟩ := hspared'
      -- what is heard is heard on this occasion first, and then on the later ones
      have hlater := suffix_sequel S (account.attend S world occasion).account
        (account.attend S world occasion).world occasions
      have hlater' := suffix_sequel S' (account'.attend S' world' occasion').account
        (account'.attend S' world' occasion').world occasions'
      have hfirst := account.suffix_attend S world occasion
      have hfirst' := account'.suffix_attend S' world' occasion'
      obtain ⟨between, hnow, hleft⟩ := hleft.split hfirst hlater
      obtain ⟨between', hnow', hright⟩ := hright.split hfirst' hlater'
      have hmiddle := hhonest.of_suffix hlater
      have hmiddle' := hhonest'.of_suffix hlater'
      have hnext : (account.attend S world occasion).account.Backed _ :=
        hbacked.serve S (occasion.world world) _
      have hnext' : (account'.attend S' world' occasion').account.Backed _ :=
        hbacked'.serve S' (occasion'.world world') _
      obtain ⟨hnotice, hecho, hpaired⟩ := h.attend hrequest hpermits hkeeps hkeeps'
        (hbacked.spread (hmiddle.of_suffix hfirst)) (hbacked'.spread (hmiddle'.of_suffix hfirst'))
        (hnext.spread hmiddle) (hnext'.spread hmiddle') hnow hnow'
      obtain rfl := hnow.rest_eq hnow' hecho
      obtain ⟨hnotices, hechoes⟩ :=
        ih hpaired hnext hnext' hrequests hlawful hspared hspared' hhonest hhonest' hleft hright
      exact ⟨congrArg₂ List.cons hnotice hnotices, hecho.trans hechoes⟩

end Account

/-- Once all its blocks were taken back, a pool is what a new one with the same allocator is. From
then on, the two are used alike, each in its own world, and no request is answered differently. -/
theorem Pool.renewed_of_destroy [DecidableEq α] (S : Supply α σ) (S' : Supply α τ)
    (pool : Pool T α) (world : World σ) (world' : World τ)
    (hdestroyed : (pool.destroy S world).result = .ok ()) :
    let ended := pool.destroy S world
    let reply := Blueprint.build S' T { allocator := pool.allocator } world'
    ∃ new, reply.result = .ok new ∧ ended.pool = new ∧
      ∀ (occasions : List (Occasion T σ)) (occasions' : List (Occasion T τ))
        (tape : List Verdict),
        let again := Account.sequel S { pool := ended.pool } ended.world.onRecord occasions
        let first := Account.sequel S' { pool := new } reply.world.onRecord occasions'
        occasions'.map (·.request) = occasions.map (·.request) →
        Account.LawfulAt S { pool := ended.pool } ended.world.onRecord occasions →
        Account.Spared S { pool := ended.pool } ended.world.onRecord occasions →
        Account.Spared S' { pool := new } reply.world.onRecord occasions' →
        Honest again.2.supply.calls → Honest first.2.supply.calls →
        verdicts again.2.supply.calls <+: tape → verdicts first.2.supply.calls <+: tape →
          again.1 = first.1 ∧ demands again.2.supply.calls = demands first.2.supply.calls := by
  intro ended reply
  have hended : ended.pool = { allocator := pool.allocator } := Pool.destroy_of_ok S hdestroyed
  refine ⟨{ allocator := pool.allocator }, rfl, hended, ?_⟩
  intro occasions occasions' tape again first hrequests hlawful hspared hspared' hhonest
    hhonest' htape htape'
  simp only [again, hended] at hlawful hspared hhonest htape ⊢
  obtain ⟨rest, hheard⟩ := Heard.of_prefix htape
  obtain ⟨rest', hheard'⟩ := Heard.of_prefix htape'
  obtain ⟨hnotices, hecho⟩ := (Account.paired_new pool.allocator _ _).sequel_eq (.new _ _)
    (.new _ _) hrequests hlawful hspared hspared' hhonest hhonest' hheard hheard'
  exact ⟨hnotices.symm, (hecho.demands_eq rfl).symm⟩

/-- A pool of two slots, one of which was released twice: it is the first on the free list, and the
link in it leads back to it. -/
def Pool.goingRound : Pool Kind.pair.itemType Collaborator where
  allocator := {}
  index := { slabs := [⟨4112, 2⟩], reserved := 4 }
  acquired := 1
  free := ⟨some 4112⟩

def laterRequests : List (Request Kind.pair.itemType Place) :=
  [.insert (Kind.pair.fit [6, 7]), .release ⟨0, 0⟩, .read ⟨0, 1⟩, .acquire, .check]

/-- The pool is lent a block in which every word is a link to the first of its slots. -/
def staleLinks : List (Occasion Kind.pair.itemType Host) :=
  { request := .acquire, memory := fun memory => memory.writeRow 4112 (.replicate 16 4112) } ::
    Occasion.quiet laterRequests

theorem Pool.renewed_of_goingRound :
    let world : World Host := { memory := ({} : Memory).setLink 4112 (some 4112), supply := {} }
    let ended := goingRound.destroy Host.supply world
    let reply := Blueprint.build Host.supply Kind.pair.itemType
      { allocator := goingRound.allocator } { memory := {}, supply := {} }
    goingRound.check world.memory = .error (.endlessList Kind.pair.itemType.name 2) ∧
      ∃ new, reply.result = .ok new ∧ ended.pool = new ∧
        let again := Account.sequel Host.supply { pool := ended.pool } ended.world.onRecord
          staleLinks
        let first := Account.sequel Host.supply { pool := new } reply.world.onRecord
          (Occasion.quiet (.acquire :: laterRequests))
        again.1.map (·.report.acquired) = [1, 2, 2, 2, 3, 3] ∧ again.1 = first.1 ∧
          demands again.2.supply.calls = demands first.2.supply.calls := by
  intro world ended reply
  obtain ⟨new, hnew, hsame, hlater⟩ := renewed_of_destroy Host.supply Host.supply goingRound world
    { memory := {}, supply := {} } (by decide +kernel)
  refine ⟨by decide +kernel, new, hnew, hsame, by decide +kernel, ?_⟩
  obtain rfl : { allocator := {} } = new := Except.ok.inj hnew
  dsimp only [ended, reply]
  exact hlater staleLinks (Occasion.quiet (.acquire :: laterRequests)) [.granted, .granted] rfl
    (by decide +kernel) ⟨nofun, Account.spared_quiet _ _ _ _⟩ (Account.spared_quiet _ _ _ _)
    (by decide +kernel) (by decide +kernel) (by decide +kernel) (by decide +kernel)

end SlabPool
