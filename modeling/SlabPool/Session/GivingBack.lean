import SlabPool.Session.Response

/-!
# Giving items back, and giving pools up

Items go back one by one, correctly or not; a pool goes as a whole.
-/

namespace SlabPool.Session

def release (session : Session) (number : Nat) : Response :=
  session.ofLive number fun handle _ member =>
    (session.setStatus number .released).conclude handle.pool member
      (member.pool.release handle.item session.world)

/-- Brings the value in an item to its end and releases the item. If that raises a fault, the item
stays in use without a value. -/
def remove (session : Session) (number : Nat) : Response :=
  session.ofFilled number fun handle member =>
    let turn := member.pool.remove handle.item session.world
    let status := match turn.result with
      | .ok () => .released
      | .error _ => .live false
    (session.setStatus number status).conclude handle.pool member turn

/-- Gives items back one after the other. Trouble with one does not keep the others, but the first
trouble is the answer; a fault ends it at once. -/
def giveBackEach (giveBack : Session → Nat → Response) (position : Nat)
    (first : Option (Nat × Trouble)) (notes : Notes) (session : Session) : List Nat → Response
  | [] =>
    let answer := match first with
      | none => .done
      | some (position, trouble) => .halted position trouble
    { session, answer := .ok answer, notes }
  | number :: numbers =>
    match giveBack session number with
    | ⟨session, .ok _, added⟩ =>
      giveBackEach giveBack (position + 1) first (notes ++ added) session numbers
    | ⟨session, .error (.stop (.fault fault)), added⟩ =>
      { session, answer := .error (.stop (.fault fault)), notes := notes ++ added }
    | ⟨session, .error trouble, added⟩ =>
      giveBackEach giveBack (position + 1) (first <|> some (position, trouble)) (notes ++ added)
        session numbers

def releaseMany (session : Session) (numbers : List Nat) : Response :=
  giveBackEach release 0 none {} session numbers

def removeMany (session : Session) (numbers : List Nat) : Response :=
  giveBackEach remove 0 none {} session numbers

/-! ## Misuse -/

/-- Releases a place into a pool that it should not be released into. -/
def releaseWrongly (session : Session) (number : Nat) (member : Member) (place : Nat) :
    Response :=
  session.conclude number { member with tainted := true } (member.pool.release place session.world)

/-- Releases an item of the right size that belongs to no pool. -/
def releaseForeign (session : Session) (number : Nat) : Response :=
  session.ofMember number fun member =>
    let (place, heap) := session.world.supply.heap.place
      ⟨member.kind.itemType.size, member.kind.itemType.align⟩
    (session.updateHost ({ · with heap })).releaseWrongly number member place

/-- Releases an item in use into another pool of the same kind. -/
def give (session : Session) (number : Argument Nat) (handleNumber : Nat) : Response :=
  match session.handle? handleNumber with
  | .error refusal => session.refuse refusal
  | .ok (handle, owner) =>
    session.ofGiven number fun number =>
      session.ofMember number fun member =>
        if handle.pool = number ∨ owner.kind ≠ member.kind then
          session.refuse .badInput
        else if handle.status.isLive then
          (session.setStatus handleNumber .dead).releaseWrongly number member handle.item
        else
          session.refuse .notLive

/-- Releases an item that is released already, and whose place was not handed out again since. -/
def releaseAgain (session : Session) (number : Nat) : Response :=
  match session.handle? number with
  | .error refusal => session.refuse refusal
  | .ok (handle, member) =>
    let inUse := (session.liveHandles handle.pool).any (·.item == handle.item)
    if handle.status = .released ∧ !inUse then
      session.releaseWrongly handle.pool member handle.item
    else
      session.refuse .notReleased

/-- Releases a place inside an item in use. -/
def releaseInside (session : Session) (number : Nat) (offset : Argument Nat) : Response :=
  session.ofLive number fun handle _ member =>
    session.ofGiven offset fun offset =>
      if offset % 8 = 0 ∧ offset ≠ 0 ∧ offset + 8 ≤ member.kind.itemType.size then
        (session.setStatus number .dead).releaseWrongly handle.pool member (handle.item + offset)
      else
        session.refuse .badInput

/-! ## The end of a pool -/

/-- Destroys a pool. All its items are dead, it is not tainted any more, and its places are numbered
anew. -/
def destroy (session : Session) (number : Nat) : Response :=
  session.ofMember number fun member =>
    (session.buryHandles number).conclude number { member with tainted := false, numbers := ∅ }
      (member.pool.destroy Host.supply session.world)

def drop (session : Session) (number : Nat) : Response :=
  session.ofMember number fun member =>
    let reply := member.pool.drop Host.supply session.world
    { session := { session with
        members := session.members.setIfInBounds number none
        world := reply.world }
      answer := match reply.result with
        | .ok () => .ok .done
        | .error stop => .error (.stop stop)
      notes := .ofReply member.kind reply }

end SlabPool.Session
