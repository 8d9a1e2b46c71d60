import SignedOrders.Asset

/-!
# Markets

A market trades a base asset against a quote asset, each with the number of
places that amounts of it may have.  It is named by the two tickers.  The same
pair can be traded from the other side: `invert` exchanges the sides and marks
the market, and inverting twice gives the market back (`invert_invert`).
-/

namespace SignedOrders

/-- One side of a market: an asset and the precision it is traded with. -/
structure Side where
  asset : Asset
  precision : Int
  deriving DecidableEq, Repr

/-- A market; `inverted` marks one that was found by its reversed name. -/
structure Market where
  base : Side
  quote : Side
  inverted : Bool
  deriving DecidableEq, Repr

namespace Market

/-- The tickers of base and quote, joined by an underscore. -/
def name (market : Market) : String := market.base.asset.ticker ++ "_" ++ market.quote.asset.ticker

/-- The chains on which the assets settle, without repetition, the base's first. -/
def chains (market : Market) : List Chain :=
  if market.quote.asset.chain = market.base.asset.chain then [market.base.asset.chain]
  else [market.base.asset.chain, market.quote.asset.chain]

/-- The market seen from the other side. -/
def invert (market : Market) : Market := ⟨market.quote, market.base, !market.inverted⟩

@[simp] theorem invert_invert (market : Market) : market.invert.invert = market := by
  simp [invert]

theorem mem_chains {market : Market} {chain : Chain} :
    chain ∈ market.chains ↔ chain = market.base.asset.chain ∨ chain = market.quote.asset.chain := by
  unfold chains
  split
  · next h => simp [h]
  · simp

end Market

end SignedOrders
