import SignedOrders.Failure
import SignedOrders.Market
import SignedOrders.Text.Pieces

/-!
# The catalog of markets

A catalog finds markets by name.  Among markets of one name the last counts, at
the place of the first.  A name that is not in the catalog may be the reversal of
one that is; it then stands for that market seen from the other side.
-/

namespace SignedOrders

/-- Markets by name. -/
structure Catalog where
  entries : List (String × Market)
  deriving DecidableEq, Repr

namespace Catalog

/-- The catalog with a market added under its name, in place of one that has it. -/
def insert (catalog : Catalog) (market : Market) : Catalog :=
  if catalog.entries.any fun e => e.1 == market.name then
    ⟨catalog.entries.map fun e => if e.1 == market.name then (e.1, market) else e⟩
  else ⟨catalog.entries ++ [(market.name, market)]⟩

/-- The catalog of some markets. -/
def ofList (markets : List Market) : Catalog := markets.foldl insert ⟨[]⟩

/-- The market of a given name. -/
def get? (catalog : Catalog) (name : String) : Option Market :=
  (catalog.entries.find? fun e => e.1 == name).map (·.2)

/-- The names of all markets, sorted. -/
def names (catalog : Catalog) : List String :=
  (catalog.entries.map (·.1)).mergeSort fun a b => decide (a ≤ b)

/-- The parts of a name between separators, in the opposite order. -/
def reversedName (separator name : String) : String :=
  String.ofList
    (Text.join separator.toList (Text.split separator.toList name.toList).reverse)

/-- The separator in force when a caller may name one of its own. -/
def separatorOr (default : String) : Option String → String
  | none => default
  | some s => if s = "" then default else s

/-- The market that a name stands for: the one of that name, or the inversion of
the one of the reversed name. -/
def resolve (catalog : Catalog) (separator name : String) : Except Failure Market :=
  match catalog.get? name with
  | some market => .ok market
  | none =>
    if separator = "" then fail .emptySeparator
    else
      match catalog.get? (reversedName separator name) with
      | some market => .ok market.invert
      | none => fail (.unknownMarket name)

/-- The market of a name that is taken as it is. -/
def get (catalog : Catalog) (name : String) : Except Failure Market :=
  orFail (.unknownMarket name) (catalog.get? name)

end Catalog

end SignedOrders
