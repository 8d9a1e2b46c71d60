import SignedOrders.Order.Limit
import SignedOrders.Proofs.Failure

/-!
# Orders that are placed

A request is placed on a market step by step, and each step may fail.  When none does, the
order is what `LimitOrder.ofRequest_eq_ok_iff` says: it keeps what the request states, and
spends the quantity itself or its cost (`LimitOrder.Pays`).
-/

namespace SignedOrders

theorem Price.ofGiven_number (v : Decimal) :
    Price.ofGiven (.figure (.number v)) =
      if v.isPositive then .ok ⟨v⟩ else fail (.priceNotPositive (.figure (.number v))) :=
  rfl

/-- What can be a price is a positive number, kept as it is. -/
theorem Price.ofGiven_eq_ok {v : Decimal} {price : Price} :
    Price.ofGiven (.figure (.number v)) = .ok price ↔ v.isPositive = true ∧ price = ⟨v⟩ := by
  rw [Price.ofGiven_number]
  split
  · next positive =>
    rw [Except.ok.injEq, eq_comm]
    exact ⟨fun h => ⟨positive, h⟩, And.right⟩
  · next other => exact iff_of_false (fun h => nomatch h) fun h => other h.1

namespace LimitOrder

/-- What an order for `quantity` spends and receives: a seller spends the quantity, and a buyer
what the quote side carries of its cost. -/
inductive Pays (market : Market) (request : LimitRequest) (quantity : Decimal) :
    Amount → Asset → Prop
  | sell (sells : request.direction = .sell) :
      Pays market request quantity ⟨market.base.asset, .number quantity, market.base.precision⟩
        market.quote.asset
  | buy (buys : request.direction = .buy) (c : Decimal) (source : Amount)
      (costs : cost market.quote quantity ⟨request.price⟩ = .ok c)
      (carried : market.quote.amount (.figure (.number c)) = .ok source) :
      Pays market request quantity source market.base.asset

variable {market : Market} {request : LimitRequest} {order : LimitOrder}

/-- **What is placed for a request**, and when. -/
theorem ofRequest_eq_ok_iff :
    ofRequest market request = .ok order ↔
      ∃ quantity source destination,
        market.base.quantity (.figure (.number request.amount)) = .ok quantity ∧
        request.price.isPositive = true ∧ Pays market request quantity source destination ∧
        order = ⟨market, request.direction,
          ⟨market.base.asset, .number quantity, market.base.precision⟩, ⟨request.price⟩, source,
          destination, request.policy, request.allowTaker, request.clientOrderId⟩ := by
  constructor
  · intro h
    obtain ⟨quantity, accepted, h⟩ := bind_eq_ok.1 h
    obtain ⟨price, priced, h⟩ := bind_eq_ok.1 h
    obtain ⟨positive, rfl⟩ := Price.ofGiven_eq_ok.1 priced
    cases direction : request.direction with
    | sell =>
      rw [direction] at h
      cases h
      exact ⟨quantity, _, _, accepted, positive, .sell direction, rfl⟩
    | buy =>
      rw [direction] at h
      obtain ⟨c, costs, h⟩ := bind_eq_ok.1 h
      obtain ⟨source, carried, h⟩ := bind_eq_ok.1 h
      cases h
      exact ⟨quantity, _, _, accepted, positive, .buy direction c source costs carried, rfl⟩
  · rintro ⟨quantity, source, destination, accepted, positive, pays, rfl⟩
    refine bind_eq_ok.2 ⟨quantity, accepted, ?_⟩
    refine bind_eq_ok.2 ⟨_, Price.ofGiven_eq_ok.2 ⟨positive, rfl⟩, ?_⟩
    cases pays with
    | sell sells => rw [sells]; rfl
    | buy buys c _ costs carried =>
      rw [buys]
      exact bind_eq_ok.2 ⟨c, costs, bind_eq_ok.2 ⟨_, carried, rfl⟩⟩

/-- What an order spends has been accepted by a side of a market. -/
theorem exists_accepted (h : ofRequest market request = .ok order) :
    ∃ (side : Side) (given : Given), side.amount given = .ok order.source := by
  obtain ⟨quantity, source, destination, accepted, -, pays, rfl⟩ := ofRequest_eq_ok_iff.1 h
  cases pays with
  | sell => exact ⟨_, _, map_eq_ok.2 ⟨quantity, accepted, rfl⟩⟩
  | buy _ _ _ _ carried => exact ⟨_, _, carried⟩

end LimitOrder

end SignedOrders
