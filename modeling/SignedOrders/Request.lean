import SignedOrders.Failure
import SignedOrders.Instant.Basic

/-!
# Order requests

What a client asks for, before any market or nonce is known: to buy or sell an
amount at a limit price, or to sell an amount at whatever price there is.  A
limit order stays open as its **policy** says; only a policy with a deadline
carries the reading of a clock.
-/

namespace SignedOrders

/-- The direction of an order, seen from the base asset. -/
inductive Direction where
  | buy
  | sell
  deriving DecidableEq, Repr

namespace Direction

/-- The name of the direction in requests and payloads. -/
def name : Direction → String
  | buy => "BUY"
  | sell => "SELL"

/-- The direction of a given name. -/
def ofName? (s : String) : Option Direction := [buy, sell].find? fun d => d.name == s

theorem ofName?_name (d : Direction) : ofName? d.name = some d := by
  cases d <;> decide

end Direction

/-- How long a limit order stays open. -/
inductive PolicyKind where
  | goodTilCancelled
  | goodTilTime
  | immediateOrCancel
  | fillOrKill
  deriving DecidableEq, Repr

namespace PolicyKind

/-- The name of the kind in requests and payloads. -/
def name : PolicyKind → String
  | goodTilCancelled => "GOOD_TIL_CANCELLED"
  | goodTilTime => "GOOD_TIL_TIME"
  | immediateOrCancel => "IMMEDIATE_OR_CANCEL"
  | fillOrKill => "FILL_OR_KILL"

/-- Every kind. -/
def all : List PolicyKind := [goodTilCancelled, goodTilTime, immediateOrCancel, fillOrKill]

/-- The kind of a given name. -/
def ofName? (s : String) : Option PolicyKind := all.find? fun k => k.name == s

theorem ofName?_name (k : PolicyKind) : ofName? k.name = some k := by
  cases k <;> decide

end PolicyKind

/-- A cancellation policy. -/
structure Policy where
  kind : PolicyKind
  /-- The deadline as it was given, on a clock that need not be one of universal time. -/
  cancelAt : Option Instant.Reading
  deriving DecidableEq, Repr

namespace Policy

/-- The policy of an order that does not name one. -/
def standard : Policy := ⟨.goodTilCancelled, none⟩

/-- The policy with a deadline. -/
def goodTilTime (reading : Instant.Reading) : Policy := ⟨.goodTilTime, some reading⟩

/-- The rule that a policy breaks, if any: a deadline is needed for the one kind,
and taken by no other. -/
def brokenRule? (policy : Policy) : Option String :=
  if policy.kind = .goodTilTime then
    if policy.cancelAt.isNone then some (policy.kind.name ++ " requires cancel_at") else none
  else if policy.cancelAt.isSome then some (policy.kind.name ++ " does not take cancel_at")
  else none

/-- The deadline as payloads carry it: in universal time, where a reading of another
clock may fall out of the years that can be written. -/
def cancelAtText (policy : Policy) : Except Failure (Option String) :=
  match policy.kind, policy.cancelAt with
  | .goodTilTime, some reading => (orFail .outOfRange reading.instant.toText?).map some
  | _, _ => .ok none

end Policy

/-- A request to buy or sell an amount of the base asset at a limit price. -/
structure LimitRequest where
  market : String
  direction : Direction
  amount : Decimal
  price : Decimal
  policy : Policy
  allowTaker : Bool
  clientOrderId : Option String
  deriving DecidableEq, Repr

/-- A request to sell an amount of the base asset at the best price. -/
structure MarketRequest where
  market : String
  amount : Decimal
  clientOrderId : Option String
  deriving DecidableEq, Repr

end SignedOrders
