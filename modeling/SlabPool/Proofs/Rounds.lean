import SlabPool.Host.Collaborator
import SlabPool.Proofs.Demand
import SlabPool.Proofs.Estate.Custody
import SlabPool.Session.Kind

/-!
One slot, over and over.

A slot that is handed out and taken back is the first to be handed out again. So a client can take
and return the same slot as often as it likes, while the surroundings of the pool are asked for
nothing and no slab is added. All that such rounds leave behind is the count of acquisitions, which
only ever rises (`Estate.run_rounds`).

A single slot is enough, therefore, to bring the count to its end within the contract of clients.
-/

namespace SlabPool

variable {ι α σ : Type}

/-- One round leaves the free slots, the slabs and the books as they were, and is counted. -/
theorem Account.Sound.round {T : ItemType} (S : Supply α σ) {account : Account T α}
    {world : World σ} {item : Nat} {free : List Nat}
    (h : account.Sound world.memory (item :: free)) (hspread : account.pool.index.Spread)
    (hcount : account.pool.acquired < Word.max) :
    let taken := account.serve S world .acquire
    let returned := taken.account.serve S taken.world (.release item)
    taken.result = .ok (.item item) ∧ item ∈ taken.account.held ∧
      returned.account.Sound returned.world.memory (item :: free) ∧
      returned.account.pool.index = account.pool.index ∧
      returned.account.pool.allocator = account.pool.allocator ∧
      returned.account.held = account.held ∧
      returned.account.pool.acquired = account.pool.acquired + 1 ∧
      returned.world.supply = world.supply := by
  have hturn := Pool.acquire_of_holds S h.holds hcount
  have htaken := h.take { account.pool with
    free := ⟨world.memory.link item⟩
    acquired := account.pool.acquired + 1 } rfl rfl
  have hreturned := htaken.release hspread List.mem_cons_self
  simp only [Account.serve, handOut, hturn]
  refine ⟨rfl, List.mem_cons_self, hreturned, rfl, rfl, ?_, rfl, rfl⟩
  exact List.erase_cons_head item account.held

namespace Estate

variable {T : ι → ItemType}

/-- A slot is taken and given back, so many times in a row. -/
def rounds (i : ι) (item : Nat) : Nat → List (Action T α)
  | 0 => []
  | count + 1 => .use i .acquire :: .use i (.release item) :: rounds i item count

variable [DecidableEq ι]

/-- As long as the count lasts, any number of rounds keep the contract, in all of its forms, and are
counted, and nothing else comes of them. -/
theorem run_rounds (S : Supply α σ) {estate : Estate T α σ} {i : ι} {account : Account (T i) α}
    (hfound : estate.accounts i = some account) {item : Nat} {free : List Nat}
    (h : account.Sound estate.world.memory (item :: free)) (hspread : account.pool.index.Spread)
    (count : Nat) (hcount : account.pool.acquired + count ≤ Word.max) :
    estate.LawfulBy (fun _ account request => account.PermitsCounted request ∧
        account.PermitsValued request) S (rounds i item count) ∧
      (estate.run S (rounds i item count)).calls = estate.calls ∧
      ∃ after, (estate.run S (rounds i item count)).accounts i = some after ∧
        after.Sound (estate.run S (rounds i item count)).world.memory (item :: free) ∧
        after.pool.index = account.pool.index ∧ after.pool.allocator = account.pool.allocator ∧
        after.held = account.held ∧ after.pool.acquired = account.pool.acquired + count := by
  induction count generalizing estate account with
  | zero => exact ⟨trivial, rfl, account, hfound, h, rfl, rfl, rfl, rfl⟩
  | succ count ih =>
      obtain ⟨-, htaken, hsound, hindex, hallocator, hheld, hacquired, hsupply⟩ :=
        h.round S.recorded hspread (by omega)
      let taken := account.serve S.recorded estate.world .acquire
      let middle := estate.put i taken.world (some taken.account)
      have hmiddle : middle.accounts i = some taken.account := accounts_put_self ..
      have hfirst : estate.step S (.use i .acquire) = middle := step_use S hfound _
      let returned := taken.account.serve S.recorded taken.world (.release item)
      let next := middle.put i returned.world (some returned.account)
      have hsecond : middle.step S (.use i (.release item)) = next := step_use S hmiddle _
      obtain ⟨hlawful, hcalls, after, hafter, hrest⟩ :=
        ih (accounts_put_self middle i _ _) hsound (hindex ▸ hspread) (by omega)
      rw [rounds, run_cons, run_cons, hfirst, hsecond]
      refine ⟨⟨?_, ?_, ?_⟩, hcalls.trans (congrArg Recorded.calls hsupply), after, hafter, ?_⟩
      · intro other hother
        rw [hfound] at hother
        cases hother
        exact ⟨⟨trivial, fun _ => by omega⟩, trivial, trivial⟩
      · rw [hfirst]
        intro other hother
        rw [hmiddle] at hother
        cases hother
        exact ⟨⟨htaken, nofun⟩, htaken, trivial⟩
      · rw [hfirst, hsecond]
        exact hlawful
      · rw [hindex, hallocator, hheld, hacquired] at hrest
        obtain ⟨hlast, hindex', hallocator', hheld', hcounted⟩ := hrest
        exact ⟨hlast, hindex', hallocator', hheld', by omega⟩

/-- A pool is made with a single slot. -/
def single : List (Action (fun _ : Bool => Kind.tracked.itemType) Collaborator) :=
  [.build true { allocator := {}, initial := some 1 }]

/-- The slot of a pool that has no other is handed out and taken back so many times. -/
def worn (count : Nat) : List (Action (fun _ : Bool => Kind.tracked.itemType) Collaborator) :=
  single ++ rounds true 4096 count

/-- The count of a pool with a single slot can be brought to any word, and the slot is free then. -/
theorem run_worn {count : Nat} (hcount : count ≤ Word.max) :
    let final := (start {} {}).run Host.supply (worn count)
    (start {} {}).LawfulCounted Host.supply (worn count) ∧
      (start {} {}).LawfulValued Host.supply (worn count) ∧ Honest final.calls ∧
      ∃ account, final.accounts true = some account ∧
        account.Sound final.world.memory [4096] ∧ account.pool.index.Spread ∧
        account.pool.acquired = count := by
  intro final
  have hbalanced :
      Balanced (start {} {} : Estate (fun _ : Bool => Kind.tracked.itemType) Collaborator Host) :=
    .start _ _
  have hlawful : (start {} {}).LawfulCounted Host.supply single := by decide
  have hhonest : Honest ((start {} {}).run Host.supply single).calls := by decide
  have hfound : (((start {} {}).run Host.supply single).accounts true).isSome := rfl
  have hspread := (hbalanced.run Host.supply single).spread hhonest (Option.some_get hfound).symm
  obtain ⟨free, hsound⟩ := (Sound.start _ _).run Host.supply hbalanced hlawful hhonest true _
    (Option.some_get hfound).symm
  -- nobody holds the slot yet
  have hperm : (free ++ []).Perm [4096] := hsound.perm
  rw [List.append_nil, List.perm_singleton] at hperm
  subst hperm
  have hnone : ((((start {} {}).run Host.supply single).accounts true).get hfound).pool.acquired =
      0 := rfl
  obtain ⟨hrounds, hcalls, account, hafter, hsound', hindex, -, -, hacquired⟩ :=
    run_rounds Host.supply (Option.some_get hfound).symm hsound hspread count
      (hnone ▸ (Nat.zero_add count).symm ▸ hcount)
  rw [← run_append] at hcalls hafter hsound'
  refine ⟨lawfulBy_append.mpr ⟨hlawful, hrounds.mono fun _ _ _ h => h.1⟩,
    lawfulBy_append.mpr ⟨by decide, hrounds.mono fun _ _ _ h => h.2⟩, ?_, account, hafter, hsound',
    ?_, ?_⟩
  · rw [← hcalls] at hhonest
    exact hhonest
  · rw [hindex]
    exact hspread
  · rw [hacquired, hnone, Nat.zero_add]

end Estate

end SlabPool
