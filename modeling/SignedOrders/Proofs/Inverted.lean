import SignedOrders.FillOrder
import SignedOrders.Proofs.Cost

/-!
# The inverted market

To buy on a market is to sell on the market seen from the other side.  The two orders are
constructed in different ways: a buyer's cost is multiplied out, cut and then taken as an amount
of the quote (`LimitOrder.exists_cost_of_buy`), while a seller on the inverted market states
an amount of that same side outright.

They meet because what a side has accepted it accepts again, unchanged
(`Side.quantity_of_quantity`).  So the seller of what a buyer spends gets an order with the same
source and the same destination, at whatever price, and the settlement structures of the two
orders have the same octets (`LimitOrder.exists_sold_of_bought`).  Only the order in which
the chains are listed may change.
-/

namespace SignedOrders

/-- **What a side has accepted it accepts again**, unchanged. -/
theorem Side.quantity_of_quantity {side : Side} {given : Given} {r : Decimal}
    (accepted : side.quantity given = .ok r) : side.quantity (.figure (.number r)) = .ok r := by
  have carried := Side.carries_of_quantity accepted
  exact carried.quantity_eq (Given.figure?_figure _) rfl rfl carried.short

/-- A market and its inverse settle on the same chains. -/
theorem Market.chains_invert_perm (market : Market) : market.invert.chains.Perm market.chains := by
  rw [chains, chains, invert]
  by_cases same : market.quote.asset.chain = market.base.asset.chain
  · rw [if_pos same, if_pos same.symm, same]
  · rw [if_neg same, if_neg (Ne.symm same)]
    exact List.Perm.swap _ _ _

namespace LimitOrder

/-- The octets that settle the order on the chains of its market, for the keys and the nonces
that are used. -/
def settlements (order : LimitOrder) (keys : Chain → Key) (nonces : Combination) :
    List (Chain × Except Failure Octets) :=
  order.market.chains.map fun chain =>
    (chain, (FillOrder.make chain order.source order.destination (keys chain) nonces).bind
      FillOrder.encode)

/-- Orders that spend and receive the same, on markets with the same chains, are settled by
the same octets. -/
theorem settlements_perm {a b : LimitOrder} (source : a.source = b.source)
    (destination : a.destination = b.destination) (chains : a.market.chains.Perm b.market.chains)
    (keys : Chain → Key) (nonces : Combination) :
    (a.settlements keys nonces).Perm (b.settlements keys nonces) := by
  rw [settlements, settlements, source, destination]
  exact chains.map _

variable {market : Market} {request : LimitRequest} {bought : LimitOrder}

/-- **To buy is to sell on the inverted market.**  What an order to buy spends is a number that
can be sold on the inverted market at any price: that request is accepted, its order spends and
receives the same, its market has the same chains, and on each of them the octets of the
settlement structures are the same, for all keys and nonces. -/
theorem exists_sold_of_bought (buys : request.direction = .buy)
    (placed : ofRequest market request = .ok bought) :
    ∃ spent, bought.source.value = .number spent ∧
      ∀ sale : LimitRequest, sale.direction = .sell → sale.amount = spent →
        sale.price.isPositive = true →
        ∃ sold, ofRequest market.invert sale = .ok sold ∧ sold.source = bought.source ∧
          sold.destination = bought.destination ∧
          sold.market.chains.Perm bought.market.chains ∧
          ∀ keys nonces, (sold.settlements keys nonces).Perm (bought.settlements keys nonces) := by
  obtain ⟨q, source, destination, -, -, pays, rfl⟩ := ofRequest_eq_ok_iff.1 placed
  cases pays with
  | sell sells => cases buys.symm.trans sells
  | buy _ cost _ _ carried =>
    obtain ⟨spent, taken, rfl⟩ := map_eq_ok.1 carried
    refine ⟨spent, rfl, fun sale sells amount positive => ?_⟩
    have accepted : market.invert.base.quantity (.figure (.number sale.amount)) = .ok spent := by
      rw [amount]
      exact Side.quantity_of_quantity taken
    refine ⟨_, ofRequest_eq_ok_iff.2 ⟨spent, _, _, accepted, positive, .sell sells, rfl⟩, rfl, rfl,
      market.chains_invert_perm, ?_⟩
    exact settlements_perm rfl rfl market.chains_invert_perm

/-- Three ethers for half a neo each are the one and a half neos that are sold for ether at
seven. -/
theorem exists_sold_of_bought_three :
    let market : Market := ⟨⟨.eth, 8⟩, ⟨.neo, 8⟩, false⟩
    let request := buying ⟨false, 3, 0⟩ ⟨false, 5, -1⟩
    let sale : LimitRequest :=
      { buying ⟨false, 150000000, -8⟩ ⟨false, 7, 0⟩ with direction := .sell }
    ∃ bought sold, request.direction = .buy ∧ ofRequest market request = .ok bought ∧
      ofRequest market.invert sale = .ok sold ∧
      sold.source = ⟨.neo, .number ⟨false, 150000000, -8⟩, 8⟩ ∧ sold.destination = .eth ∧
      ∀ keys nonces, (sold.settlements keys nonces).Perm (bought.settlements keys nonces) := by
  intro market request sale
  have placed : ofRequest market request = .ok
      { market := market, direction := .buy
        amount := ⟨.eth, .number ⟨false, 300000000, -8⟩, 8⟩, price := ⟨⟨false, 5, -1⟩⟩
        source := ⟨.neo, .number ⟨false, 150000000, -8⟩, 8⟩, destination := .eth
        policy := .standard, allowTaker := true, clientOrderId := none } := by
    decide +kernel
  obtain ⟨spent, value, sells⟩ := exists_sold_of_bought rfl placed
  cases value
  obtain ⟨sold, accepted, source, destination, -, octets⟩ := sells sale rfl rfl (by decide)
  exact ⟨_, sold, rfl, placed, accepted, source, destination, octets⟩

end LimitOrder

end SignedOrders
