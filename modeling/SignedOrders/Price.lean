import SignedOrders.Amount

/-!
# Prices

A limit price is a positive number of units of the quote asset for one unit of
the base asset.  It is kept as it was given; payloads carry it in positional
notation without ending zeros.
-/

namespace SignedOrders

/-- A limit price. -/
structure Price where
  value : Decimal
  deriving DecidableEq, Repr

namespace Price

/-- The price that was given, if it is a positive number. -/
def ofGiven (given : Given) : Except Failure Price := do
  match ← orFail (.priceNotDecimal given) given.figure? with
  | .number value => if value.isPositive then return ⟨value⟩ else fail (.priceNotPositive given)
  | _ => fail (.priceNotPositive given)

/-- The price of the quote asset in the base asset. -/
def inverse (price : Price) : Except Failure Price :=
  (ofArithmetic ((Decimal.ofInt 1).div price.value)).map Price.mk

/-- The price in positional notation, as payloads carry it. -/
def wireText (price : Price) : Except Failure String :=
  (ofArithmetic price.value.normalize).map Decimal.toPlain

end Price

/-- The bounds of a rate that a settlement structure states.  They leave the rate
free, since the exchange enforces limits itself; the lower one is also the fee. -/
inductive RateBound where
  | least
  | greatest
  deriving DecidableEq, Repr

namespace RateBound

/-- The number that stands for the bound. -/
def value : RateBound → Nat
  | least => 0
  | greatest => maxEncoded

/-- The name of the bound. -/
def name : RateBound → String
  | least => "MIN_ORDER"
  | greatest => "MAX_ORDER"

/-- The bound that stands for the fee. -/
def fee : RateBound := least

end RateBound

end SignedOrders
