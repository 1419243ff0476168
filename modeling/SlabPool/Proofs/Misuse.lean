import SlabPool.Host.Collaborator
import SlabPool.Proofs.Estate.Coverage
import SlabPool.Proofs.Health

/-!
Misuse stays detectable.

A slot that is put on the free list although it is there already, or an address put there that is no
slot, makes the pool unhealthy. No later release can mend that, whatever address it is given: if a
pool is healthy after a release, then the way from the released slot on passes that slot only once,
and so the links it follows are those there were before (`Pool.healthy_of_healthy_push`). The pool
was healthy already.

Clients may go on to write into the items they still have. That is of no consequence as long as the
links do not lead into items in use: `Account.Fenced` says so, and every release keeps it up,
because the released item is in use no longer. An account that is merely covered need not be sound,
but the larger one is, and what may follow in the one may follow in the other (`Aftermath.within`).

Main statement: `Estate.check_fails_of_misuse`, on what is left of a pool after one wrong release at
any point of a run in which clients kept their contract up to then.
-/

namespace SlabPool

variable {T : ItemType} {α σ : Type}

theorem Memory.Chain.link_mem {memory : Memory} {entry : Option Nat} {items : List Nat}
    (h : memory.Chain entry items) {item next : Nat} (hitem : item ∈ items)
    (hlink : memory.link item = some next) : next ∈ items := by
  obtain ⟨before, after, rfl⟩ := List.append_of_mem hitem
  obtain ⟨-, hrest⟩ := h.of_append
  rw [hlink] at hrest
  cases after with
  | nil => cases hrest
  | cons other after =>
      obtain rfl : next = other := Option.some.inj hrest.1
      simp

/-! ### Releases -/

/-- Slots of a pool that are not the same do not begin in the same cell. -/
theorem SlabIndex.Spread.cell_ne {index : SlabIndex T} (h : index.Spread) {item other : Nat}
    (hother : other ∈ index.slots) (haligned : 8 ∣ item) (hne : item ≠ other) :
    item / 8 ≠ other / 8 := by
  have := h.eight_dvd_slot hother
  omega

/-- A pool that is healthy after a release was given one of its slots, was healthy before, and did
not have the slot on the list. -/
theorem Pool.healthy_of_healthy_push {pool : Pool T α} {memory : Memory} {item : Nat}
    (hspread : pool.index.Spread) (hhead : pool.free.head ≠ some 0) (haligned : 8 ∣ item)
    (h : Pool.Healthy { pool with free := ⟨some item⟩ } (memory.setLink item pool.free.head)) :
    item ∈ pool.index.slots ∧
      ∃ items, pool.free.Holds memory items ∧ items ⊆ pool.index.slots ∧ item ∉ items := by
  obtain ⟨whole, hholds, hsubset⟩ := h
  have hnodup := Memory.Chain.nodup hholds
  cases whole with
  | nil => cases hholds
  | cons first items =>
      obtain ⟨hfirst, hrest⟩ := hholds
      obtain rfl : item = first := Option.some.inj hfirst
      obtain ⟨hslot, hslots⟩ := List.cons_subset.mp hsubset
      obtain ⟨hfresh, -⟩ := List.nodup_cons.mp hnodup
      refine ⟨hslot, items, ?_, hslots, hfresh⟩
      rw [Memory.link_setLink_self memory item hhead] at hrest
      -- the rest of the way does not come by the cell that was written
      refine hrest.congr fun other hother => ?_
      have hne : item ≠ other := fun heq => hfresh (heq ▸ hother)
      exact (Memory.link_setLink_of_ne (hspread.cell_ne (hslots hother) haligned hne) _ _).symm

namespace Account

/-! ### Links and items in use -/

/-- The head and the links in slots that are not in use do not lead to items in use. -/
structure Fenced (account : Account T α) (memory : Memory) : Prop where
  held_subset : account.held ⊆ account.pool.index.slots
  held_nodup : account.held.Nodup
  head_ne_zero : account.pool.free.head ≠ some 0
  head : ∀ item, account.pool.free.head = some item → item ∉ account.held
  links : ∀ item ∈ account.pool.index.slots, item ∉ account.held →
    ∀ next, memory.link item = some next → next ∉ account.held

variable {account : Account T α} {memory after : Memory}

theorem Sound.fenced {free : List Nat} (h : account.Sound memory free)
    (hspread : account.pool.index.Spread) : account.Fenced memory := by
  have hapart : ∀ item ∈ free, item ∉ account.held := by
    intro item hitem hheld
    exact (h.free_apart_held hspread hitem hheld).ne rfl
  refine ⟨fun item hitem => h.mem_slots_of_held hitem, h.held_nodup hspread,
    h.holds.head_ne_zero (h.free_ne_zero hspread), ?_, ?_⟩
  · intro item hhead
    apply hapart
    have hholds := h.holds
    cases free with
    | nil => cases hhead.symm.trans hholds
    | cons first rest =>
        obtain rfl : item = first := Option.some.inj (hhead.symm.trans hholds.1)
        exact List.mem_cons_self
  · intro item hslot hfree next hlink
    have hmem := (List.mem_append.mp (h.perm.mem_iff.mpr hslot)).resolve_right hfree
    exact hapart next (Memory.Chain.link_mem h.holds hmem hlink)

namespace Fenced

theorem release (h : account.Fenced memory) (hspread : account.pool.index.Spread) {item : Nat}
    (hpos : 0 < item) (haligned : 8 ∣ item) :
    Account.Fenced
      { account with
        pool := { account.pool with free := ⟨some item⟩ }
        held := account.held.erase item }
      (memory.setLink item account.pool.free.head) where
  held_subset := List.Subset.trans List.erase_subset h.held_subset
  held_nodup := h.held_nodup.erase item
  head_ne_zero := by
    rintro ⟨⟩
    exact absurd hpos (Nat.lt_irrefl 0)
  head := by
    rintro _ ⟨⟩
    exact h.held_nodup.not_mem_erase
  links := by
    intro other hslot hfree next hlink hheld
    have hheld := List.mem_of_mem_erase hheld
    by_cases heq : item = other
    · -- the link that was written is the former head
      subst heq
      rw [Memory.link_setLink_self memory item h.head_ne_zero] at hlink
      exact h.head next hlink hheld
    · rw [Memory.link_setLink_of_ne (hspread.cell_ne hslot haligned heq)] at hlink
      have hfree : other ∉ account.held := fun hmem =>
        hfree ((List.mem_erase_of_ne (Ne.symm heq)).mpr hmem)
      exact h.links other hslot hfree next hlink hheld

/-- What is written into an item in use leaves the links in all other slots. -/
theorem link_eq (h : account.Fenced memory) (hspread : account.pool.index.Spread) {item : Nat}
    (hitem : item ∈ account.held) (hwrites : T.WritesOnly [item] memory after) {other : Nat}
    (hslot : other ∈ account.pool.index.slots) (hfree : other ∉ account.held) :
    after.link other = memory.link other := by
  have hne : other ≠ item := fun heq => hfree (heq ▸ hitem)
  have hapart := hspread.apart_of_ne hslot (h.held_subset hitem) hne
  exact (hwrites.keeps_of_apart hapart).link_eq

theorem write (h : account.Fenced memory) (hspread : account.pool.index.Spread) {item : Nat}
    (hitem : item ∈ account.held) (hwrites : T.WritesOnly [item] memory after)
    (contents : Nat → Option T.Value) :
    Account.Fenced { account with contents } after where
  held_subset := h.held_subset
  held_nodup := h.held_nodup
  head_ne_zero := h.head_ne_zero
  head := h.head
  links := by
    intro other hslot hfree next hlink
    rw [h.link_eq hspread hitem hwrites hslot hfree] at hlink
    exact h.links other hslot hfree next hlink

/-- A pool that is healthy after a write into an item in use was healthy before. -/
theorem healthy_of_write (h : account.Fenced memory) (hspread : account.pool.index.Spread)
    {item : Nat} (hitem : item ∈ account.held) (hwrites : T.WritesOnly [item] memory after)
    (hhealthy : account.pool.Healthy after) : account.pool.Healthy memory := by
  -- along the way from an entry that is not in use, no slot is in use, and so no link is changed
  have hway : ∀ items entry, (∀ next, entry = some next → next ∉ account.held) →
      after.Chain entry items → items ⊆ account.pool.index.slots → memory.Chain entry items := by
    intro items
    induction items with
    | nil => exact fun entry _ hchain _ => hchain
    | cons other items ih =>
        rintro _ hentry ⟨rfl, hrest⟩ hsubset
        obtain ⟨hslot, hslots⟩ := List.cons_subset.mp hsubset
        have hfree := hentry other rfl
        rw [h.link_eq hspread hitem hwrites hslot hfree] at hrest
        exact ⟨rfl, ih _ (h.links other hslot hfree) hrest hslots⟩
  obtain ⟨items, hholds, hsubset⟩ := hhealthy
  exact ⟨items, hway items _ h.head hholds hsubset, hsubset⟩

end Fenced

/-! ### What may follow -/

/-- Requests that neither hand out slots nor add or give back slabs: any address at which a link can
lie is released, something is asked, or a client writes into an item it has. -/
def PermitsAnyRelease (account : Account T α) : Request T Nat → Prop
  | .release item | .remove item => 0 < item ∧ 8 ∣ item
  | .check | .read _ => True
  | .write item _ => item ∈ account.held
  | .scribble item offset words =>
    item ∈ account.held ∧ 8 ∣ offset ∧ offset + 8 * words.length ≤ T.size
  | .acquire | .insert _ | .grow _ | .destroy => False

theorem PermitsAnyRelease.held_of_overwrites {request : Request T Nat}
    (h : account.PermitsAnyRelease request) (item : Nat) (hoverwrites : request.Overwrites item) :
    item ∈ account.held := by
  cases request with
  | write other value =>
      obtain rfl : other = item := hoverwrites
      exact h
  | scribble other offset words =>
      obtain rfl : other = item := hoverwrites
      exact h.1
  | acquire | insert | release | remove | grow | check | destroy | read => exact hoverwrites.elim

theorem Within.permitsAnyRelease {larger : Account T α} (h : account.Within larger)
    {request : Request T Nat} (hpermits : account.PermitsAnyRelease request) :
    larger.PermitsAnyRelease request := by
  cases request with
  | write item value => exact h.held.subset hpermits
  | scribble item offset words => exact ⟨h.held.subset hpermits.1, hpermits.2⟩
  | acquire | insert | release | remove | grow | check | destroy | read => exact hpermits

/-- The accounts and worlds that any number of such requests can lead to, while others keep out of
the slots of the pool. -/
inductive Aftermath (S : Supply α σ) (account : Account T α) (world : World σ) :
    Account T α → World σ → Prop
  | start : Aftermath S account world account world
  | serve {later : Account T α} {world' : World σ} (request : Request T Nat)
    (reached : Aftermath S account world later world')
    (permitted : later.PermitsAnyRelease request) :
    Aftermath S account world (later.serve S world' request).account
      (later.serve S world' request).world
  | elsewhere {later : Account T α} {world' : World σ} (memory : Memory)
    (reached : Aftermath S account world later world')
    (kept : ∀ item ∈ later.pool.index.slots, T.Keeps item world'.memory memory) :
    Aftermath S account world later { world' with memory }

/-- Whatever may follow in an account may follow in a larger one, in the same world. -/
theorem Aftermath.within {S : Supply α σ} {world world' : World σ} {larger later : Account T α}
    (hwithin : account.Within larger) (h : account.Aftermath S world later world') :
    ∃ later', later.Within later' ∧ larger.Aftermath S world later' world' := by
  induction h with
  | start => exact ⟨larger, hwithin, .start⟩
  | @serve later world' request reached permitted ih =>
      obtain ⟨later', hwithin', hreached⟩ := ih
      obtain ⟨hreply, -⟩ := serve_congr S hwithin'.pool_eq world' request
      have hworld : (later'.serve S world' request).world = (later.serve S world' request).world :=
        congrArg (·.world) hreply
      refine ⟨_, hwithin'.serve S world' permitted.held_of_overwrites, ?_⟩
      rw [← hworld]
      exact .serve request hreached (hwithin'.permitsAnyRelease permitted)
  | elsewhere memory reached kept ih =>
      obtain ⟨later', hwithin', hreached⟩ := ih
      exact ⟨later', hwithin', .elsewhere memory hreached (hwithin'.pool_eq ▸ kept)⟩

/-- A permitted request makes nothing better. -/
structure NoBetter (account : Account T α) (memory : Memory) (later : Account T α)
    (after : Memory) : Prop where
  index_eq : later.pool.index = account.pool.index
  fenced : later.Fenced after
  healthy : later.pool.Healthy after → account.pool.Healthy memory

theorem Fenced.noBetter_release (h : account.Fenced memory) (hspread : account.pool.index.Spread)
    {item : Nat} (hpos : 0 < item) (haligned : 8 ∣ item) :
    account.NoBetter memory
      { account with
        pool := { account.pool with free := ⟨some item⟩ }
        held := account.held.erase item }
      (memory.setLink item account.pool.free.head) where
  index_eq := rfl
  fenced := h.release hspread hpos haligned
  healthy := by
    intro hhealthy
    obtain ⟨-, items, hholds, hsubset, -⟩ :=
      Pool.healthy_of_healthy_push hspread h.head_ne_zero haligned hhealthy
    exact ⟨items, hholds, hsubset⟩

theorem Fenced.noBetter_write (h : account.Fenced memory) (hspread : account.pool.index.Spread)
    {item : Nat} (hitem : item ∈ account.held) (hwrites : T.WritesOnly [item] memory after)
    (contents : Nat → Option T.Value) :
    account.NoBetter memory { account with contents } after where
  index_eq := rfl
  fenced := h.write hspread hitem hwrites contents
  healthy := h.healthy_of_write hspread hitem hwrites

/-- Nor does what others write outside the slots. -/
theorem Fenced.noBetter_elsewhere (h : account.Fenced memory)
    (hkeeps : ∀ item ∈ account.pool.index.slots, T.Keeps item memory after) :
    account.NoBetter memory account after where
  index_eq := rfl
  fenced := by
    refine ⟨h.held_subset, h.held_nodup, h.head_ne_zero, h.head, ?_⟩
    intro item hslot hfree next hlink
    rw [(hkeeps item hslot).link_eq] at hlink
    exact h.links item hslot hfree next hlink
  healthy := by
    rintro ⟨items, hholds, hsubset⟩
    have hsame : ∀ item ∈ items, T.Keeps item after memory :=
      fun item hitem => (hkeeps item (hsubset hitem)).symm
    exact ⟨items, ItemType.Keeps.holds hsame hholds, hsubset⟩

theorem Fenced.serve (S : Supply α σ) {world : World σ} (h : account.Fenced world.memory)
    (hspread : account.pool.index.Spread) {request : Request T Nat}
    (hpermits : account.PermitsAnyRelease request) :
    let served := account.serve S world request
    account.NoBetter world.memory served.account served.world.memory := by
  have hstill : ∀ contents, account.NoBetter world.memory { account with contents } world.memory :=
    fun contents => ⟨rfl, ⟨h.held_subset, h.held_nodup, h.head_ne_zero, h.head, h.links⟩, id⟩
  have haligned : ∀ item ∈ account.held, 8 ∣ item :=
    fun item hitem => hspread.eight_dvd_slot (h.held_subset hitem)
  cases request with
  | acquire => exact hpermits.elim
  | insert value => exact hpermits.elim
  | release item => exact h.noBetter_release hspread hpermits.1 hpermits.2
  | remove item =>
      simp only [Account.serve, Pool.remove]
      split
      · exact hstill _
      · exact h.noBetter_release hspread hpermits.1 hpermits.2
  | grow capacity => exact hpermits.elim
  | check =>
      simp only [Account.serve]
      split
      · exact hstill _
      · exact hstill _
  | destroy => exact hpermits.elim
  | read item => exact hstill _
  | write item value =>
      exact h.noBetter_write hspread hpermits (.store (haligned item hpermits) _ value) _
  | scribble item offset words =>
      obtain ⟨hitem, hoffset, hfits⟩ := hpermits
      exact h.noBetter_write hspread hitem (.writeRow (haligned item hitem) hoffset hfits _) _

theorem Aftermath.noBetter (S : Supply α σ) {world : World σ} (h : account.Fenced world.memory)
    (hspread : account.pool.index.Spread) {later : Account T α} {world' : World σ}
    (haftermath : account.Aftermath S world later world') :
    account.NoBetter world.memory later world'.memory := by
  induction haftermath with
  | start => exact ⟨rfl, h, id⟩
  | serve request reached permitted ih =>
      have hstep := ih.fenced.serve S (ih.index_eq ▸ hspread) permitted
      exact ⟨hstep.index_eq.trans ih.index_eq, hstep.fenced, ih.healthy ∘ hstep.healthy⟩
  | elsewhere memory reached kept ih =>
      have hstep := ih.fenced.noBetter_elsewhere kept
      exact ⟨ih.index_eq, hstep.fenced, ih.healthy ∘ hstep.healthy⟩

/-! ### Wrong releases -/

/-- A release is wrong if the address is on the free list already, or is no slot of the pool. -/
def Misuse (account : Account T α) (memory : Memory) (item : Nat) : Prop :=
  (∃ free, account.pool.free.Holds memory free ∧ item ∈ free) ∨ item ∉ account.pool.index.slots

theorem Within.misuse {larger : Account T α} (h : account.Within larger) {item : Nat}
    (hmisuse : account.Misuse memory item) : larger.Misuse memory item := by
  rw [Misuse, h.pool_eq]
  exact hmisuse

theorem not_healthy_of_misuse (hspread : account.pool.index.Spread)
    (hhead : account.pool.free.head ≠ some 0) {item : Nat} (haligned : 8 ∣ item)
    (hmisuse : account.Misuse memory item) :
    ¬ Pool.Healthy { account.pool with free := ⟨some item⟩ }
      (memory.setLink item account.pool.free.head) := by
  intro hhealthy
  obtain ⟨hslot, items, hholds, -, hfresh⟩ :=
    Pool.healthy_of_healthy_push hspread hhead haligned hhealthy
  obtain ⟨free, hfree, hmem⟩ | hforeign := hmisuse
  · exact hfresh (hholds.unique hfree ▸ hmem)
  · exact hforeign hslot

theorem check_fails_of_not_healthy (hspread : account.pool.index.Spread)
    (h : ¬ account.pool.Healthy memory) :
    (∃ entry, account.pool.check memory = .error (.foreignEntry T.name entry)) ∨
      account.pool.check memory = .error (.endlessList T.name account.pool.capacity) := by
  cases hcheck : account.pool.check memory with
  | ok _ => exact absurd ((Pool.check_eq_ok_iff hspread).mp hcheck) h
  | error fault =>
      obtain ⟨entry, -, rfl⟩ | ⟨-, rfl⟩ := (Pool.check_eq_error_iff hspread).mp hcheck
      · exact .inl ⟨entry, rfl⟩
      · exact .inr rfl

end Account

namespace Estate

variable {ι : Type} {T : ι → ItemType} [Fintype ι] [DecidableEq ι] [DecidableEq α]

/-- In a lawful run, let the pool `i` be given an address that is on its free list already or is no
slot of it. From then on its check fails, whatever addresses are released to it next, as long as no
client writes into storage it gave up. -/
theorem check_fails_of_misuse (S : Supply α σ) (memory : Memory) (state : σ)
    (actions : List (Action T α)) (hlawful : (start memory state).Lawful S actions)
    (hhonest : Honest ((start memory state).run S actions).calls) (i : ι)
    (account : Account (T i) α)
    (hfound : ((start memory state).run S actions).accounts i = some account)
    (item : Nat) (hpos : 0 < item) (haligned : 8 ∣ item)
    (hmisuse : account.Misuse ((start memory state).run S actions).world.memory item)
    (later : Account (T i) α) (world : World (Recorded α σ))
    (haftermath :
      let misused := account.serve S.recorded ((start memory state).run S actions).world
        (.release item)
      misused.account.Aftermath S.recorded misused.world later world) :
    (∃ entry, later.pool.check world.memory = .error (.foreignEntry (T i).name entry)) ∨
      later.pool.check world.memory = .error (.endlessList (T i).name later.pool.capacity) := by
  have hbalanced : Balanced (start memory state : Estate T α σ) := .start memory state
  have hspread := (hbalanced.run S actions).spread hhonest hfound
  obtain ⟨larger, free, hwithin, hsound, -⟩ :=
    (Covered.start memory state).run S hbalanced hlawful hhonest i account hfound
  rw [← hwithin.pool_eq] at hspread
  let before := ((start memory state).run S actions).world
  have hmisused : (account.serve S.recorded before (.release item)).account.Within
      (larger.serve S.recorded before (.release item)).account :=
    hwithin.serve S.recorded before fun _ => False.elim
  have hworld : (larger.serve S.recorded before (.release item)).world =
      (account.serve S.recorded before (.release item)).world :=
    congrArg (·.world) (Account.serve_congr S.recorded hwithin.pool_eq before (.release item)).1
  obtain ⟨later', hlater', haftermath'⟩ := Account.Aftermath.within hmisused haftermath
  rw [← hworld] at haftermath'
  -- all of it is said of the larger account, which has the same pool
  have hfenced := hsound.fenced hspread
  have hpermits : larger.PermitsAnyRelease (.release item) := ⟨hpos, haligned⟩
  have hfirst := hfenced.serve S.recorded hspread hpermits
  have hlater := haftermath'.noBetter S.recorded hfirst.fenced hspread
  have hunhealthy := Account.not_healthy_of_misuse hspread hfenced.head_ne_zero haligned
    (hwithin.misuse hmisuse)
  rw [← hlater'.pool_eq]
  apply Account.check_fails_of_not_healthy
  · rw [hlater.index_eq]
    exact hspread
  · exact fun hhealthy => hunhealthy (hlater.healthy hhealthy)

/-- One slot is given back, while the other stays in use. -/
def oneGivenBack : List (Action (fun _ : Bool => Kind.pair.itemType) Collaborator) :=
  [.build true { allocator := {}, initial := some 2 },
    .use true .acquire,
    .use true .acquire,
    .use true (.release 4096)]

/-- The same slot is given back again, then the other one, then an address in the middle of it. -/
def givenBackAgain : List (Action (fun _ : Bool => Kind.pair.itemType) Collaborator) :=
  [.use true (.release 4096), .use true (.release 4112), .use true (.release 4120)]

theorem check_fails_of_givenBackAgain :
    let final := ((start {} {}).run Host.supply oneGivenBack).run Host.supply givenBackAgain
    ∃ account, final.accounts true = some account ∧
      ∃ fault, account.pool.check final.world.memory = .error fault := by
  intro final
  have hfound : (((start {} {}).run Host.supply oneGivenBack).accounts true).isSome := rfl
  have hfails := check_fails_of_misuse Host.supply {} {} oneGivenBack (by decide) (by decide) true _
    (Option.some_get hfound).symm 4096 (by decide) (by decide)
    (.inl ⟨[4096], ⟨rfl, rfl⟩, List.mem_singleton_self 4096⟩) _ _
    (.serve (.release 4120) (.serve (.release 4112) .start ⟨by decide, by decide⟩)
      ⟨by decide, by decide⟩)
  refine ⟨_, rfl, ?_⟩
  obtain ⟨entry, hforeign⟩ | hendless := hfails
  · exact ⟨_, hforeign⟩
  · exact ⟨_, hendless⟩

end Estate

end SlabPool
