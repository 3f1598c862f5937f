import OData.Exchange
import OData.Failure

/-! # Sessions

A session is what a client sees of a service over time.  It has a clock, which
moves only while the client waits, the turns that the service takes, one for each
request, and the requests sent so far.

A pause can be cut short: the client is told to stop (`cancelled`), now or at a
moment set in advance, or a deadline passes.  When several of these fall on the
same moment, a pause that ends then is over, else a deadline comes before a stop.
-/
namespace OData

/-- What the service does about one request. -/
structure Turn where
  /-- The milliseconds until the outcome is known. -/
  delay : Nat
  /-- Whether the client is told to stop just before. -/
  cancels : Bool
  /-- The response, or the reason why none arrived. -/
  outcome : Except String Response

/-- Why something done in a session came to no value. -/
inductive Halt where
  | failed (failure : Failure)
  /-- The deadline passed. -/
  | expired
  /-- The steps allowed were not enough. -/
  | unfinished
  deriving DecidableEq, Repr

/-- A request and the moment at which it was sent. -/
structure Sent where
  moment : Nat
  request : Request
  deriving DecidableEq

/-- A client's view of a service.  Moments are counted in milliseconds. -/
structure Session where
  now : Nat
  /-- What the service does about its first request, its second and so on. -/
  turns : Nat → Turn
  /-- The requests sent so far, in order. -/
  sent : List Sent
  /-- Whether the client was told to stop. -/
  cancelled : Bool
  /-- When the client will be told to stop. -/
  cancelAt : Option Nat
  /-- When the client has to be done with what it does. -/
  deadline : Option Nat

/-- Something done in a session. -/
abbrev InSession (α : Type) := ExceptT Halt (StateM Session) α

/-- A way to send requests. -/
abbrev Sender := Request → InSession Response

namespace Session

/-- The session in which nothing was done yet. -/
def start (turns : Nat → Turn) : Session := ⟨0, turns, [], false, none, none⟩

/-- The turns of a list, and `rest` when they are used up. -/
def turnsOf (turns : List Turn) (rest : Turn) (n : Nat) : Turn := turns.getD n rest

/-- Whether the client was told to stop, now or earlier. -/
def isCancelled (s : Session) : Bool := s.cancelled || s.cancelAt.any (· < s.now)

/-- The moment before `finish`, if any, at which a pause is cut short by something
that is due at `due`. -/
def cutBefore? (s : Session) (finish : Nat) (due : Option Nat) : Option Nat :=
  (due.filter (· < finish)).map (max s.now)

/-- The session after a pause that the deadline cut short at a moment. -/
def expire (s : Session) (moment : Nat) : Except Halt Unit × Session :=
  (.error .expired, { s with now := moment })

/-- The session after a pause in which the client was told to stop. -/
def stop (s : Session) (moment : Nat) : Except Halt Unit × Session :=
  (.error (.failed .cancelled), { s with now := moment, cancelled := true })

/-- Does nothing for a while. -/
def pause (d : Duration) : InSession Unit := fun s =>
  if s.isCancelled then s.stop s.now
  else
    let finish := s.now + d.ceilMillis
    match s.cutBefore? finish s.deadline, s.cutBefore? finish s.cancelAt with
    | some t, some u => if t ≤ u then s.expire t else s.stop u
    | some t, none => s.expire t
    | none, some u => s.stop u
    | none, none => (.ok (), { s with now := finish })

/-- Sends a request straight to the service and waits for its turn to end. -/
def send : Sender := fun request s =>
  if s.isCancelled then (.error (.failed .cancelled), s)
  else
    let turn := s.turns s.sent.length
    match pause (.ofMillis turn.delay) { s with sent := s.sent ++ [⟨s.now, request⟩] } with
    | (.error halt, s) => (.error halt, s)
    | (.ok (), s) =>
      (turn.outcome.mapError fun reason => Halt.failed (.transport reason),
        { s with cancelled := s.cancelled || turn.cancels })

/-- Does something by the end of `limit`. -/
def within {α : Type} (limit : Duration) (act : StateM Session (Except Halt Unit × α)) :
    StateM Session (Except Halt Unit × α) := fun s =>
  match act { s with deadline := some (s.now + limit.ceilMillis) } with
  | ((.error .expired, a), s') =>
    ((.error (.failed (.timeout limit)), a), { s' with deadline := s.deadline })
  | (outcome, s') => (outcome, { s' with deadline := s.deadline })

/-! ## From outside -/

/-- The session after a while in which the client does nothing and heeds
nothing. -/
def elapse (s : Session) (millis : Nat) : Session := { s with now := s.now + millis }

/-- Tells the client to stop. -/
def cancel (s : Session) : Session := { s with cancelled := true }

/-- Tells the client to stop after a while; the earliest such moment counts. -/
def cancelAfter (s : Session) (millis : Nat) : Session :=
  let moment := s.now + millis
  { s with cancelAt := some (s.cancelAt.elim moment (min moment)) }

/-- Lets the client go on after it was told to stop. -/
def renew (s : Session) : Session := { s with cancelled := false, cancelAt := none }

end Session
end OData
