import QuicView.Session.Negotiation

namespace QuicView

structure SessionToken where
  asBytes : Bytes
  deriving DecidableEq, Repr

class TokenValidator (Validator : Type) where
  validate : Validator → SessionToken → Except SessionError Unit

structure AcceptAll where

instance acceptAllValidator : TokenValidator AcceptAll where
  validate := fun _ _ => .ok ()

/-- The bits that differ between two bytes at one position. Positions that only one side has are not
looked at. -/
def difference (a b : Bytes) : UInt8 :=
  (a.zip b).foldl (fun diff (x, y) => diff ||| (x ^^^ y)) 0

def constantTimeEq (a b : Bytes) : Bool :=
  if a.length ≠ b.length then false else difference a b = 0

structure PresharedKeyValidator where
  expected : Bytes
  deriving DecidableEq, Repr

instance presharedKeyValidator : TokenValidator PresharedKeyValidator where
  validate := fun validator token =>
    if constantTimeEq token.asBytes validator.expected then .ok ()
    else .error (.authFailed "invalid token")

end QuicView
