import SignedOrders.Decimal.Arithmetic
import SignedOrders.Decimal.Reader
import SignedOrders.Failure
import SignedOrders.Market

/-!
# Amounts

An amount is a quantity of an asset, written with the number of places its side
of the market has.  Payloads carry it in positional notation and settlement
structures as a whole number of hundred-millionths in 64 bits.

`Side.quantity` decides which quantities a side can carry: finite and not
negative, with no digit beyond the places of the side or of the encoding, and
not too large for the encoding.  The checks come in that order, and each has its
own cause.
-/

namespace SignedOrders

namespace Given

/-- The figure that was given; none when a text is not one. -/
def figure? : Given → Option Figure
  | text s => Figure.ofText? s
  | figure f => some f

theorem figure?_figure (f : Figure) : (figure f).figure? = some f := rfl

end Given

/-- The number of places of an encoded amount. -/
def encodingPlaces : Nat := 8

/-- The largest encoded amount. -/
def maxEncoded : Nat := 0xffffffffffffffff

/-- A quantity of an asset. -/
structure Amount where
  asset : Asset
  value : Figure
  precision : Int
  deriving DecidableEq, Repr

namespace Side

/-- The exponent of the last place of the side. -/
def lastPlace (side : Side) : Except Failure Int :=
  (ofArithmetic ((Decimal.ofInt 1).scale (-side.precision))).map (·.exponent)

/-- The given quantity with exactly the places of the side, when the side can
carry it. -/
def quantity (side : Side) (given : Given) : Except Failure Decimal := do
  match ← orFail (.amountNotDecimal given) given.figure? with
  | .number value =>
    if value.isNegative then fail (.amountNegative given)
    else
      let places := -(← ofArithmetic value.normalize).exponent
      if places > side.precision then
        fail (.amountTooFine given side.asset side.precision)
      else if places > encodingPlaces then fail (.amountBelowEncoding given encodingPlaces)
      else if (← ofArithmetic (value.scale encodingPlaces)).exceeds maxEncoded then
        fail (.amountTooLarge given)
      else ofArithmetic (value.quantize (← side.lastPlace) .halfEven)
  | _ => fail (.amountNotFinite given)

/-- The amount of the side's asset that was given. -/
def amount (side : Side) (given : Given) : Except Failure Amount :=
  (side.quantity given).map fun value => ⟨side.asset, .number value, side.precision⟩

end Side

namespace Amount

/-- The number of hundred-millionths, without what is less than one. -/
def encoded (amount : Amount) : Except Failure Int :=
  match amount.value with
  | .number value => (ofArithmetic (value.scale encodingPlaces)).map Decimal.truncate
  | .infinite _ => fail .outOfRange
  | .nan _ false _ => fail .notANumber
  | .nan _ true _ => fail (.arithmetic .invalidOperation)

/-- The quantity in positional notation, as payloads carry it. -/
def wireText (amount : Amount) : String := amount.value.toPlain

/-- The name of the asset, as payloads carry it. -/
def currency (amount : Amount) : String := amount.asset.ticker

end Amount

end SignedOrders
