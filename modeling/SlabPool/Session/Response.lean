import SlabPool.Session.State

/-!
# Responses

A command leaves a session behind, and is answered: with an answer or the trouble there was, with
the events the pools reported, and with the notes on the values that came to their end.
-/

namespace SlabPool

/-- What is noted while a command is carried out. -/
structure Notes where
  events : Array Event := #[]
  /-- The numbers of the tracked values that came to their end, in order. -/
  ended : Array Nat := #[]

instance : Append Notes where
  append before after := ⟨before.events ++ after.events, before.ended ++ after.ended⟩

def Notes.ofReply {β : Type} (kind : Kind) (reply : Reply Host β) : Notes where
  events := reply.events.toArray
  ended := (reply.destroyed.filterMap kind.endNote?).toArray

structure Response where
  session : Session
  answer : Except Trouble Answer
  notes : Notes := {}

namespace Session

def refuse (session : Session) (refusal : Refusal) : Response :=
  { session, answer := .error (.refusal refusal) }

def answer (session : Session) (answer : Answer) : Response :=
  { session, answer := .ok answer }

def ofGiven {α : Type} (session : Session) (argument : Argument α) (ask : α → Response) :
    Response :=
  match argument with
  | none => session.refuse .badInput
  | some argument => ask argument

def ofMember (session : Session) (number : Nat) (ask : Member → Response) : Response :=
  match session.member? number with
  | .error refusal => session.refuse refusal
  | .ok member => ask member

def ofUntainted (session : Session) (number : Nat) (ask : Member → Response) : Response :=
  session.ofMember number fun member =>
    if member.tainted then session.refuse .tainted else ask member

/-- Asks about an item in use. The truth value says whether there is a value in it. -/
def ofLive (session : Session) (number : Nat) (ask : Handle → Bool → Member → Response) :
    Response :=
  match session.live? number with
  | .error refusal => session.refuse refusal
  | .ok (handle, filled, member) => ask handle filled member

def ofFilled (session : Session) (number : Nat) (ask : Handle → Member → Response) : Response :=
  session.ofLive number fun handle filled member =>
    if filled then ask handle member else session.refuse .noValue

/-- Asks for a value that items of a kind can hold. -/
def ofAdmitted (session : Session) (kind : Kind) (datum : Argument Datum)
    (ask : Datum → Response) : Response :=
  session.ofGiven (datum.filter (kind.Admits ·)) ask

/-- Carries an operation on a pool over into the session, which then answers `done` unless the
operation stopped short. -/
def conclude (session : Session) (number : Nat) (member : Member)
    (turn : Turn member.kind.itemType Collaborator Host Unit) : Response where
  session := session.settle number member turn
  answer := match turn.result with
    | .ok () => .ok .done
    | .error stop => .error (.stop stop)
  notes := .ofReply member.kind turn.toReply

end Session

end SlabPool
