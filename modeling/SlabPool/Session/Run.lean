import SlabPool.Session.GivingBack
import SlabPool.Session.HandingOut

/-!
# Carrying commands out

Each command is carried out by the function of its name; the questions, which change nothing, are
answered here. After a command one can look at how things are with a pool, if it is there.
-/

namespace SlabPool

namespace Session

def describe (session : Session) (number : Nat) (pretty : Bool) : Response :=
  session.ofMember number fun member =>
    match member.pool.describe Collaborator.text with
    | .ok record => session.answer (.text (record.render pretty))
    | .error fault => { session, answer := .error (.stop (.fault fault)) }

def check (session : Session) (number : Nat) : Response :=
  session.ofMember number fun member =>
    match member.pool.check session.world.memory with
    | .ok () => session.answer .done
    | .error fault => { session, answer := .error (.stop (.fault fault)) }

/-- Puts a value into an item in use. A value that is there already does not come to its end. -/
def write (session : Session) (number : Nat) (datum : Argument Datum) : Response :=
  session.ofLive number fun handle _ member =>
    session.ofAdmitted member.kind datum fun datum =>
      let (value, archive) := member.kind.encode session.archive datum
      let memory := ItemType.store session.world.memory handle.item value
      let session := { session with archive, world := { session.world with memory } }
      (session.setStatus number (.live true)).answer .done

def datum? (session : Session) (number : Nat) : Except Refusal Datum :=
  match session.live? number with
  | .error refusal => .error refusal
  | .ok (_, false, _) => .error .noValue
  | .ok (handle, true, member) =>
    let value := member.kind.itemType.load session.world.memory handle.item
    .ok (member.kind.datum session.archive value.val)

def read (session : Session) (number : Nat) : Response :=
  match session.datum? number with
  | .error refusal => session.refuse refusal
  | .ok datum => session.answer (.datum datum)

def readMany (session : Session) (numbers : List Nat) : Response :=
  session.answer (.data (numbers.map fun number =>
    match session.datum? number with
    | .error refusal => .error (.refusal refusal)
    | .ok datum => .ok datum))

def configure (session : Session) (id : Nat) (settings : LedgerSettings) : Response :=
  let change := fun host : Host => host.setLedger id { host.ledger id with settings }
  (session.updateHost change).answer .done

def run (session : Session) : Command → Response
  | .create kind construction failIn =>
    session.ofGiven kind fun kind =>
      session.ofGiven construction fun construction => session.create kind construction failIn
  | .acquire pool failIn => session.ofGiven pool (session.acquire · failIn)
  | .acquireMany pool count failIn =>
    session.ofGiven count fun count => session.acquireMany pool count failIn
  | .insert pool datum failIn => session.ofGiven pool (session.insert · datum failIn)
  | .grow pool capacity failIn => session.ofGiven pool (session.grow · capacity failIn)
  | .capacities pool =>
    session.ofGiven pool fun pool =>
      session.ofMember pool fun member => session.answer (.capacities member.pool.capacities)
  | .describe pool pretty => session.ofGiven pool (session.describe · pretty)
  | .countLive pool =>
    session.ofGiven pool fun pool =>
      session.ofMember pool fun _ => session.answer (.number (session.liveHandles pool).size)
  | .check pool => session.ofGiven pool session.check
  | .destroy pool => session.ofGiven pool session.destroy
  | .drop pool => session.ofGiven pool session.drop
  | .releaseForeign pool => session.ofGiven pool session.releaseForeign
  | .give pool handle => session.ofGiven handle (session.give pool)
  | .nameOf handle =>
    session.ofGiven handle fun handle =>
      session.ofLive handle fun handle _ _ => session.answer (.item handle.name)
  | .write handle datum => session.ofGiven handle (session.write · datum)
  | .read handle => session.ofGiven handle session.read
  | .release handle => session.ofGiven handle session.release
  | .remove handle => session.ofGiven handle session.remove
  | .releaseAgain handle => session.ofGiven handle session.releaseAgain
  | .releaseInside handle offset => session.ofGiven handle (session.releaseInside · offset)
  | .readMany handles => session.ofGiven handles session.readMany
  | .releaseMany handles => session.ofGiven handles session.releaseMany
  | .removeMany handles => session.ofGiven handles session.removeMany
  | .configure id settings => session.ofGiven settings (session.configure id)
  | .inspect id => session.answer (.ledger (session.world.supply.ledger id))
  | .unknown pool =>
    session.ofGiven pool fun pool => session.ofMember pool fun _ => session.refuse .badInput

/-- How things are with a pool. -/
def shown? (session : Session) : Subject → Option Standing
  | .pool number => session.standing? number
  | .handle number => (session.handles[number]?).bind (session.standing? ·.pool)

end Session

end SlabPool
