import QuicView.Protocol.Message

namespace QuicView

inductive SessionError where
  | authFailed (reason : String)
  | negotiationFailed (reason : String)
  | alreadyClosed
  | invalidRoleTransition (source target : String)
  | timeout
  deriving DecidableEq, Repr

inductive NegotiationState where
  | awaitingOffer
  | offerReceived (offer : SessionOffer)
  | displaysSelected (selections : List NegotiateDisplay)
  | accepted
  | rejected (reason : String)
  deriving DecidableEq, Repr

structure Negotiator where
  state : NegotiationState
  deriving DecidableEq, Repr

namespace Negotiator

def new : Negotiator where
  state := .awaitingOffer

def receiveOffer (neg : Negotiator) (offer : SessionOffer) :
    Except SessionError Unit × Negotiator :=
  if neg.state ≠ .awaitingOffer then
    (.error (.negotiationFailed "unexpected offer in current state"), neg)
  else (.ok (), { state := .offerReceived offer })

def selectDisplays (neg : Negotiator) (selections : List NegotiateDisplay) :
    Except SessionError Unit × Negotiator :=
  match neg.state with
  | .offerReceived _ => (.ok (), { state := .displaysSelected selections })
  | _ => (.error (.negotiationFailed "must receive offer before selecting displays"), neg)

/-- The state is replaced before it is known whether there is something to accept, and put back
where there is not. -/
def accept (neg : Negotiator) : Except SessionError (List NegotiateDisplay) × Negotiator :=
  let replaced : Negotiator := { neg with state := .accepted }
  match neg.state with
  | .displaysSelected selections => (.ok selections, replaced)
  | other => (.error (.negotiationFailed "nothing to accept"), { replaced with state := other })

def reject (_neg : Negotiator) (reason : String) : Negotiator :=
  { state := .rejected reason }

inductive Call where
  | receiveOffer (offer : SessionOffer)
  | selectDisplays (selections : List NegotiateDisplay)
  | accept
  | reject (reason : String)
  deriving DecidableEq, Repr

def step (neg : Negotiator) : Call → Negotiator
  | .receiveOffer offer => (neg.receiveOffer offer).2
  | .selectDisplays selections => (neg.selectDisplays selections).2
  | .accept => neg.accept.2
  | .reject reason => neg.reject reason

end Negotiator

end QuicView
