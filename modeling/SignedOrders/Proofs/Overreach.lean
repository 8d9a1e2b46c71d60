import SignedOrders.Order.Market
import SignedOrders.Proofs.Amount
import SignedOrders.Proofs.Decimal.Reach
import SignedOrders.Proofs.Order

/-!
# Requests that overreach

A side refuses the quantities that it cannot carry, each for a cause of its own.  Its checks
are made in decimal arithmetic, which itself has no result for numbers that reach too far, and
such a failure belongs to no stage.  This module says for which requests that is so.

A number **strains** a side if it has more than twenty-eight digits at the side's last place.
A quantity **overreaches** a side if it is too large to be compared with the largest amount, or
if it strains the side after it has passed all checks.  A limit order overreaches a market
also by its cost, by a price that cannot be written, and by a deadline without a text
(`LimitRequest.Overreaches`).  All other requests are placed or refused.
-/

namespace SignedOrders

open Decimal

/-! ## Failures -/

/-- An amount or a price cannot be applied to its market. -/
def Cause.RefusesAmount : Cause → Prop
  | amountNotDecimal _ | amountNotFinite _ | amountNegative _ | amountTooFine ..
  | amountBelowEncoding .. | amountTooLarge _ | priceNotDecimal _ | priceNotPositive _ => True
  | _ => False

/-- The failure by such a cause belongs to the choice of the market. -/
theorem Cause.RefusesAmount.of_eq {cause : Cause} (h : cause.RefusesAmount) :
    Failure.of cause = ⟨cause, some .marketResolution⟩ := by
  cases cause <;> first | rfl | exact h.elim

namespace Failure

/-- The failure by a cause for which an amount or a price is refused. -/
def RefusesAmount (e : Failure) : Prop := ∃ cause : Cause, cause.RefusesAmount ∧ .of cause = e

/-- The failure by an arithmetic signal. -/
def IsArithmetic (e : Failure) : Prop := ∃ signal, .ofSignal signal = e

variable {e : Failure}

theorem refusesAmount_of {cause : Cause} (h : cause.RefusesAmount) : (of cause).RefusesAmount :=
  ⟨cause, h, rfl⟩

theorem isArithmetic_ofSignal (signal : Signal) : (ofSignal signal).IsArithmetic := ⟨signal, rfl⟩

theorem IsArithmetic.stage (h : e.IsArithmetic) : e.stage = none := by
  obtain ⟨signal, rfl⟩ := h
  rfl

end Failure

/-! ## Last places -/

namespace Side

variable {side : Side} {given : Given} {v : Decimal} {mode : Rounding} {e : Failure}

theorem place_bounds (places : 0 ≤ side.precision) :
    tiniestExponent ≤ side.place ∧ side.place ≤ 0 := by
  have tiniest : tiniestExponent = -1000026 := rfl
  rw [place]
  omega

/-- Only a side with more places than one scaling can reach has no last place. -/
theorem lastPlace_eq_error_iff (places : 0 ≤ side.precision) :
    side.lastPlace = .error e ↔
      e = .ofSignal .invalidOperation ∧ (maxScale : ℤ) < side.precision := by
  rw [lastPlace, map_eq_error, ofArithmetic_eq_error]
  by_cases far : (maxScale : ℤ) < side.precision
  · rw [scale, if_pos (by omega)]
    constructor
    · rintro ⟨_, ⟨⟩, rfl⟩
      exact ⟨rfl, far⟩
    · rintro ⟨rfl, -⟩
      exact ⟨_, rfl, rfl⟩
  · refine iff_of_false ?_ fun h => far h.2
    rintro ⟨signal, failed, -⟩
    have one : leading (ofInt 1) = 0 := by decide
    have top : maxExponent = 999999 := rfl
    obtain ⟨-, -, beyond⟩ := (scale_eq_error_iff (by omega)).1 failed
    omega

/-- The number as it is written at the last place of the side. -/
def atLastPlace (side : Side) (mode : Rounding) (v : Decimal) : Except Failure Decimal := do
  ofArithmetic (v.quantize (← side.lastPlace) mode)

/-- The number has more than twenty-eight digits at the last place of the side, or there is no
such place. -/
def Strains (side : Side) (v : Decimal) : Prop :=
  (maxScale : ℤ) < side.precision ∨
    v.coefficient ≠ 0 ∧ (Decimal.precision : ℤ) ≤ v.leading - side.place

/-- **Writing a number at the last place of a side fails just for those that strain it.** -/
theorem atLastPlace_eq_error_iff (places : 0 ≤ side.precision)
    (short : mode = .down → width v.coefficient ≤ Decimal.precision) :
    side.atLastPlace mode v = .error e ↔ e = .ofSignal .invalidOperation ∧ side.Strains v := by
  obtain ⟨low, high⟩ := place_bounds places
  unfold atLastPlace Strains
  cases last : side.lastPlace with
  | error e' =>
    obtain ⟨rfl, far⟩ := (lastPlace_eq_error_iff places).1 last
    change Except.error _ = Except.error e ↔ _
    rw [Except.error.injEq, eq_comm]
    exact ⟨fun same => ⟨same, .inl far⟩, And.left⟩
  | ok place =>
    obtain rfl := lastPlace_eq_place last
    have near : ¬(maxScale : ℤ) < side.precision := fun far => by
      cases last.symm.trans ((lastPlace_eq_error_iff places).2 ⟨rfl, far⟩)
    change ofArithmetic _ = _ ↔ _
    rw [ofArithmetic_eq_error, or_iff_right near]
    constructor
    · rintro ⟨signal, failed, rfl⟩
      obtain ⟨rfl, strains⟩ := (quantize_eq_error_iff low high short).1 failed
      exact ⟨rfl, strains⟩
    · rintro ⟨rfl, strains⟩
      exact ⟨_, (quantize_eq_error_iff low high short).2 ⟨rfl, strains⟩, rfl⟩

theorem atLastPlace_halfEven_iff (places : 0 ≤ side.precision) :
    side.atLastPlace .halfEven v = .error e ↔
      e = .ofSignal .invalidOperation ∧ side.Strains v :=
  atLastPlace_eq_error_iff places nofun

/-- What is written at the last place of a side strains it no more. -/
theorem of_atLastPlace {r : Decimal} (places : 0 ≤ side.precision)
    (h : side.atLastPlace mode v = .ok r) :
    r.leading < Decimal.precision ∧ ¬side.Strains r := by
  obtain ⟨place, last, h⟩ := bind_eq_ok.1 h
  obtain ⟨-, -, exponent, -, short, -⟩ := quantize_cases (ofArithmetic_eq_ok.1 h)
  obtain ⟨-, high⟩ := place_bounds places
  have same := lastPlace_eq_place last
  have digits : r.leading = r.exponent + width r.coefficient - 1 := leading_of_short short
  refine ⟨by omega, ?_⟩
  rintro (far | ⟨-, strains⟩)
  · cases last.symm.trans ((lastPlace_eq_error_iff places).2 ⟨rfl, far⟩)
  · omega

/-! ## Quantities -/

/-- The quantity passes the checks of the side. -/
structure Admits (side : Side) (v : Decimal) : Prop where
  unsigned : v.isNegative = false
  places : ∃ u, v.normalize = .ok u ∧ -u.exponent ≤ side.precision ∧ -u.exponent ≤ encodingPlaces
  bound : ∃ s, v.scale encodingPlaces = .ok s ∧ s.exceeds maxEncoded = false

/-- The quantity is too large to be compared with the largest amount. -/
def Beyond (v : Decimal) : Prop :=
  v.isPositive = true ∧ maxExponent < v.leading + encodingPlaces

/-- The quantity is too large to be compared with the largest amount, or it strains the side
after it has passed all checks. -/
def Overreaches (side : Side) (v : Decimal) : Prop :=
  Beyond v ∨ side.Admits v ∧ side.Strains v

theorem Beyond.nonzero (h : Beyond v) : v.coefficient ≠ 0 := (isPositive_iff_sign.1 h.1).2

theorem Beyond.unsigned (h : Beyond v) : v.isNegative = false :=
  isNegative_of_pos (isPositive_iff_sign.1 h.1).1

/-- The checks are made of the quantity in turn, and the first that fails counts. -/
theorem quantity_number (side : Side) (reads : given.figure? = some (.number v)) :
    side.quantity given =
      if v.isNegative then fail (.amountNegative given)
      else ofArithmetic v.normalize >>= fun u =>
        if -u.exponent > side.precision then fail (.amountTooFine given side.asset side.precision)
        else if -u.exponent > encodingPlaces then
          fail (.amountBelowEncoding given encodingPlaces)
        else ofArithmetic (v.scale encodingPlaces) >>= fun s =>
          if s.exceeds maxEncoded then fail (.amountTooLarge given)
          else side.atLastPlace .halfEven v := by
  rw [quantity, reads]
  rfl

theorem quantity_of_admits (reads : given.figure? = some (.number v)) (h : side.Admits v) :
    side.quantity given = side.atLastPlace .halfEven v := by
  obtain ⟨unsigned, ⟨u, hu, fine, encodable⟩, s, hs, fits⟩ := h
  rw [quantity_number side reads, unsigned, if_neg Bool.false_ne_true,
    bind_of_ok (ofArithmetic_eq_ok.2 hu), if_neg (not_lt.2 fine), if_neg (not_lt.2 encodable),
    bind_of_ok (ofArithmetic_eq_ok.2 hs), fits, if_neg Bool.false_ne_true]

theorem quantity_of_beyond (reads : given.figure? = some (.number v))
    (places : 0 ≤ side.precision) (h : Beyond v) :
    ∃ e : Failure, e.IsArithmetic ∧ side.quantity given = .error e := by
  rw [quantity_number side reads, h.unsigned, if_neg Bool.false_ne_true]
  cases hu : v.normalize with
  | error signal =>
    exact ⟨_, Failure.isArithmetic_ofSignal signal,
      bind_of_error (ofArithmetic_eq_error.2 ⟨_, rfl, rfl⟩)⟩
  | ok u =>
    have large : (Decimal.precision : ℤ) ≤ v.leading := by
      have range : maxExponent = 999999 ∧ encodingPlaces = 8 ∧ Decimal.precision = 28 :=
        ⟨rfl, rfl, rfl⟩
      have beyond := h.2
      omega
    -- the quantity is whole, so that it passes the checks of places and fails when it is scaled
    have whole := exponent_of_normalize hu h.nonzero large
    have scaled : v.scale encodingPlaces = .error .overflow :=
      (scale_eq_error_iff (by decide)).2 ⟨rfl, h.nonzero, h.2⟩
    refine ⟨_, Failure.isArithmetic_ofSignal .overflow, ?_⟩
    rw [bind_of_ok (ofArithmetic_eq_ok.2 rfl), if_neg (by omega), if_neg (by omega)]
    exact bind_of_error (ofArithmetic_eq_error.2 ⟨_, scaled, rfl⟩)

/-- **A quantity that is neither admitted nor beyond all comparison is refused.** -/
theorem quantity_refused (reads : given.figure? = some (.number v)) (barred : ¬side.Admits v)
    (near : ¬Beyond v) : ∃ e : Failure, e.RefusesAmount ∧ side.quantity given = .error e := by
  have refused {cause : Cause} (h : cause.RefusesAmount) :
      ∃ e : Failure, e.RefusesAmount ∧ (fail cause : Except Failure Decimal) = .error e :=
    ⟨_, Failure.refusesAmount_of h, rfl⟩
  rw [quantity_number side reads]
  split
  · exact refused trivial
  next unsigned =>
  rw [Bool.not_eq_true] at unsigned
  cases hu : v.normalize with
  | error signal =>
    obtain ⟨-, nonzero, far⟩ := normalize_eq_error_iff.1 hu
    have places : encodingPlaces = 8 := rfl
    exact absurd ⟨(isPositive_iff unsigned).2 nonzero, by omega⟩ near
  | ok u =>
    rw [bind_of_ok (ofArithmetic_eq_ok.2 rfl)]
    split
    · exact refused trivial
    next fine =>
    split
    · exact refused trivial
    next encodable =>
    cases hs : v.scale encodingPlaces with
    | error signal =>
      obtain ⟨-, nonzero, far⟩ := (scale_eq_error_iff (by decide)).1 hs
      exact absurd ⟨(isPositive_iff unsigned).2 nonzero, far⟩ near
    | ok s =>
      rw [bind_of_ok (ofArithmetic_eq_ok.2 rfl)]
      split
      · exact refused trivial
      · next fits =>
        rw [Bool.not_eq_true] at fits
        exact absurd ⟨unsigned, ⟨u, hu, not_lt.1 fine, not_lt.1 encodable⟩, s, hs, fits⟩ barred

/-- **A side has no result for a quantity just when it is overreached**; otherwise it carries the
quantity or refuses it. -/
theorem quantity_error (reads : given.figure? = some (.number v)) (places : 0 ≤ side.precision)
    (h : side.quantity given = .error e) :
    e.RefusesAmount ∧ ¬side.Overreaches v ∨ e.IsArithmetic ∧ side.Overreaches v := by
  by_cases beyond : Beyond v
  · obtain ⟨_, arithmetic, failed⟩ := quantity_of_beyond reads places beyond
    cases failed.symm.trans h
    exact .inr ⟨arithmetic, .inl beyond⟩
  by_cases admits : side.Admits v
  · rw [quantity_of_admits reads admits] at h
    obtain ⟨rfl, strains⟩ := (atLastPlace_halfEven_iff places).1 h
    exact .inr ⟨Failure.isArithmetic_ofSignal _, .inr ⟨admits, strains⟩⟩
  · obtain ⟨_, refuses, failed⟩ := quantity_refused reads admits beyond
    cases failed.symm.trans h
    exact .inl ⟨refuses, not_or.2 ⟨beyond, fun h => admits h.1⟩⟩

theorem quantity_of_overreaches (reads : given.figure? = some (.number v))
    (places : 0 ≤ side.precision) (h : side.Overreaches v) :
    ∃ e : Failure, e.IsArithmetic ∧ side.quantity given = .error e := by
  rcases h with beyond | ⟨admits, strains⟩
  · exact quantity_of_beyond reads places beyond
  · rw [quantity_of_admits reads admits]
    exact ⟨_, Failure.isArithmetic_ofSignal _, (atLastPlace_halfEven_iff places).2 ⟨rfl, strains⟩⟩

/-- A side is not overreached by what is written at its last place. -/
theorem not_overreaches_of_atLastPlace {r : Decimal} (places : 0 ≤ side.precision)
    (h : side.atLastPlace mode v = .ok r) : ¬side.Overreaches r := by
  have range : maxExponent = 999999 ∧ encodingPlaces = 8 ∧ Decimal.precision = 28 := ⟨rfl, rfl, rfl⟩
  obtain ⟨near, eased⟩ := of_atLastPlace places h
  rintro (⟨-, beyond⟩ | ⟨-, strains⟩)
  · omega
  · exact eased strains

end Side

/-! ## Deadlines -/

/-- A policy cannot be written just when its deadline has no text. -/
theorem Policy.cancelAtText_eq_error_iff {policy : Policy} {e : Failure} :
    policy.cancelAtText = .error e ↔
      ∃ reading, policy = .goodTilTime reading ∧ reading.instant.toText? = none ∧
        e = .of .outOfRange := by
  obtain ⟨kind, cancelAt⟩ := policy
  cases kind with
  | goodTilTime =>
    cases cancelAt with
    | none => exact iff_of_false (fun h => nomatch h) (by rintro ⟨_, ⟨⟩, -⟩)
    | some reading =>
      change Except.map some (orFail .outOfRange reading.instant.toText?) = .error e ↔ _
      rw [map_eq_error, orFail_eq_error]
      constructor
      · exact fun h => ⟨reading, rfl, h⟩
      · rintro ⟨_, ⟨⟩, h⟩
        exact h
  | _ => exact iff_of_false (fun h => nomatch h) (by rintro ⟨_, ⟨⟩, -⟩)

/-! ## Limit orders -/

theorem Price.ofGiven_error {v : Decimal} {e : Failure}
    (h : Price.ofGiven (.figure (.number v)) = .error e) : e.RefusesAmount := by
  rw [Price.ofGiven_number] at h
  split at h
  · cases h
  · cases h
    exact Failure.refusesAmount_of trivial

namespace LimitOrder

variable {quote : Side} {quantity c : Decimal} {price : Price} {e : Failure}

/-- **The cost has no value just when the product of quantity and price strains the side of the
quote.** -/
theorem cost_eq_error_iff (places : 0 ≤ quote.precision) :
    (∃ e, cost quote quantity price = .error e ∧ e.IsArithmetic) ↔
      quote.Strains (quantity.times price.value) := by
  obtain ⟨low, high⟩ := Side.place_bounds places
  have split : cost quote quantity price =
      ofArithmetic (quantity.times price.value).fit >>= quote.atLastPlace .down := rfl
  rw [split]
  cases hfit : (quantity.times price.value).fit with
  | error signal =>
    obtain ⟨-, nonzero, far⟩ := fit_eq_error_iff.1 hfit
    have range : maxExponent = 999999 ∧ Decimal.precision = 28 := ⟨rfl, rfl⟩
    exact iff_of_true ⟨_, rfl, Failure.isArithmetic_ofSignal signal⟩
      (.inr ⟨nonzero, by omega⟩)
  | ok product =>
    obtain ⟨short, same⟩ := reach_of_fit hfit
    -- fitting the product does not change whether it strains the side
    have strains : quote.Strains product ↔ quote.Strains (quantity.times price.value) :=
      or_congr_right (same quote.place low)
    rw [bind_of_ok (ofArithmetic_eq_ok.2 rfl), ← strains]
    constructor
    · rintro ⟨_, failed, -⟩
      exact ((Side.atLastPlace_eq_error_iff places fun _ => short).1 failed).2
    · intro h
      exact ⟨_, (Side.atLastPlace_eq_error_iff places fun _ => short).2 ⟨rfl, h⟩,
        Failure.isArithmetic_ofSignal _⟩

/-- A cost fails by arithmetic alone. -/
theorem cost_error (places : 0 ≤ quote.precision) (h : cost quote quantity price = .error e) :
    e.IsArithmetic := by
  rcases bind_eq_error.1 h with failed | ⟨product, -, h⟩
  · obtain ⟨signal, -, rfl⟩ := ofArithmetic_eq_error.1 failed
    exact Failure.isArithmetic_ofSignal signal
  rcases bind_eq_error.1 h with failed | ⟨place, -, failed⟩
  · rw [((Side.lastPlace_eq_error_iff places).1 failed).1]
    exact Failure.isArithmetic_ofSignal _
  · obtain ⟨signal, -, rfl⟩ := ofArithmetic_eq_error.1 failed
    exact Failure.isArithmetic_ofSignal signal

/-- A side of a quote is not overreached by a cost. -/
theorem not_overreaches_of_cost (places : 0 ≤ quote.precision)
    (h : cost quote quantity price = .ok c) : ¬quote.Overreaches c := by
  obtain ⟨product, -, h⟩ := bind_eq_ok.1 h
  have written : quote.atLastPlace .down product = .ok c := h
  exact Side.not_overreaches_of_atLastPlace places written

end LimitOrder

/-- **Why a request for a limit order reaches too far for a market.** -/
inductive LimitRequest.Overreaches (request : LimitRequest) (market : Market) : Prop
  /-- By its amount. -/
  | amount (h : market.base.Overreaches request.amount)
  /-- By its cost: what a buyer pays strains the side of the quote. -/
  | cost (quantity : Decimal) (buys : request.direction = .buy)
      (accepted : market.base.quantity (.figure (.number request.amount)) = .ok quantity)
      (positive : request.price.isPositive = true)
      (strains : market.quote.Strains (quantity.times request.price))
  /-- By its price, which is too large to be written. -/
  | price (order : LimitOrder) (placed : LimitOrder.ofRequest market request = .ok order)
      (far : maxExponent < request.price.leading)
  /-- By its deadline, which lies outside of the years that can be written in universal time. -/
  | deadline (order : LimitOrder) (placed : LimitOrder.ofRequest market request = .ok order)
      (reading : Instant.Reading) (policy : request.policy = .goodTilTime reading)
      (untimely : reading.instant.toText? = none)

/-- A request for a market order reaches too far by its amount alone. -/
def MarketRequest.Overreaches (request : MarketRequest) (market : Market) : Prop :=
  market.base.Overreaches request.amount

/-- Amounts on both sides of the market may have some places, or none. -/
structure Market.Placed (market : Market) : Prop where
  base : 0 ≤ market.base.precision
  quote : 0 ≤ market.quote.precision

theorem Market.Placed.invert {market : Market} (h : market.Placed) : market.invert.Placed :=
  ⟨h.quote, h.base⟩

namespace LimitOrder

variable {market : Market} {request : LimitRequest} {order : LimitOrder} {e : Failure}

/-- **A request is refused, or overreaches the market.** -/
theorem ofRequest_error (placed : market.Placed) (h : ofRequest market request = .error e) :
    e.RefusesAmount ∨ e.IsArithmetic ∧ request.Overreaches market := by
  rcases bind_eq_error.1 h with failed | ⟨quantity, accepted, h⟩
  · rcases Side.quantity_error rfl placed.base failed with ⟨refuses, -⟩ | ⟨arithmetic, overreach⟩
    · exact .inl refuses
    · exact .inr ⟨arithmetic, .amount overreach⟩
  rcases bind_eq_error.1 h with failed | ⟨price, priced, h⟩
  · exact .inl (Price.ofGiven_error failed)
  obtain ⟨positive, rfl⟩ := Price.ofGiven_eq_ok.1 priced
  cases direction : request.direction with
  | sell =>
    rw [direction] at h
    cases h
  | buy =>
    rw [direction] at h
    rcases bind_eq_error.1 h with failed | ⟨cost, costs, h⟩
    · have arithmetic := cost_error placed.quote failed
      exact .inr ⟨arithmetic, .cost quantity direction accepted positive
        ((cost_eq_error_iff placed.quote).1 ⟨e, failed, arithmetic⟩)⟩
    rcases bind_eq_error.1 h with failed | ⟨amount, -, h⟩
    · rcases Side.quantity_error rfl placed.quote (map_eq_error.1 failed) with
        ⟨refuses, -⟩ | ⟨-, overreach⟩
      · exact .inl refuses
      · exact absurd overreach (not_overreaches_of_cost placed.quote costs)
    · cases h

/-- **An order cannot be posted only if its request overreaches the market.** -/
theorem posting_error {time index : ℤ} {affiliate : Option String}
    (placed : ofRequest market request = .ok order)
    (h : order.posting time index affiliate = .error e) :
    e.stage = none ∧ request.Overreaches market := by
  obtain ⟨quantity, source, destination, -, -, -, rfl⟩ := ofRequest_eq_ok_iff.1 placed
  rcases bind_eq_error.1 h with failed | ⟨cancelAt, -, h⟩
  · obtain ⟨reading, policy, untimely, rfl⟩ := Policy.cancelAtText_eq_error_iff.1 failed
    exact ⟨rfl, .deadline _ placed reading policy untimely⟩
  rcases bind_eq_error.1 h with failed | ⟨text, -, h⟩
  · rw [Price.wireText, map_eq_error, ofArithmetic_eq_error] at failed
    obtain ⟨signal, failed, rfl⟩ := failed
    exact ⟨rfl, .price _ placed (normalize_eq_error_iff.1 failed).2.2⟩
  · cases h

end LimitOrder

/-- **A request that overreaches a market fails there**, when its order is placed or when it is
posted, and the failure belongs to no stage. -/
theorem LimitRequest.Overreaches.fails {request : LimitRequest} {market : Market}
    (placed : market.Placed) (h : request.Overreaches market) :
    (∃ e : Failure, LimitOrder.ofRequest market request = .error e ∧ e.stage = none) ∨
      ∃ order, LimitOrder.ofRequest market request = .ok order ∧
        ∀ time index affiliate, ∃ e : Failure,
          order.posting time index affiliate = .error e ∧ e.stage = none := by
  cases h with
  | amount h =>
    obtain ⟨e, arithmetic, failed⟩ :=
      Side.quantity_of_overreaches (Given.figure?_figure _) placed.base h
    exact .inl ⟨e, bind_of_error failed, arithmetic.stage⟩
  | cost quantity buys accepted positive strains =>
    have strains : market.quote.Strains (quantity.times (Price.mk request.price).value) := strains
    obtain ⟨e, failed, arithmetic⟩ := (LimitOrder.cost_eq_error_iff placed.quote).2 strains
    refine .inl ⟨e, ?_, arithmetic.stage⟩
    refine (bind_of_ok accepted).trans ?_
    refine (bind_of_ok (Price.ofGiven_eq_ok.2 ⟨positive, rfl⟩)).trans ?_
    rw [buys]
    exact bind_of_error failed
  | price order made far =>
    have kept : order.price = ⟨request.price⟩ ∧ request.price.isPositive = true := by
      obtain ⟨_, _, _, -, positive, -, rfl⟩ := LimitOrder.ofRequest_eq_ok_iff.1 made
      exact ⟨rfl, positive⟩
    have unwritten : order.price.wireText = .error (.ofSignal .overflow) := by
      rw [kept.1, Price.wireText, map_eq_error, ofArithmetic_eq_error]
      exact ⟨.overflow, normalize_eq_error_iff.2
        ⟨rfl, (isPositive_iff_sign.1 kept.2).2, far⟩, rfl⟩
    refine .inr ⟨order, made, fun time index affiliate => ?_⟩
    -- the deadline is written first, and fails first if it has no text
    cases timed : order.policy.cancelAtText with
    | error e =>
      obtain ⟨reading, -, -, rfl⟩ := Policy.cancelAtText_eq_error_iff.1 timed
      exact ⟨_, bind_of_error timed, rfl⟩
    | ok cancelAt => exact ⟨_, (bind_of_ok timed).trans (bind_of_error unwritten), rfl⟩
  | deadline order made reading policy untimely =>
    have untold : order.policy.cancelAtText = .error (.of .outOfRange) := by
      obtain ⟨_, _, _, -, -, -, rfl⟩ := LimitOrder.ofRequest_eq_ok_iff.1 made
      exact Policy.cancelAtText_eq_error_iff.2 ⟨reading, policy, untimely, rfl⟩
    exact .inr ⟨order, made, fun time index affiliate => ⟨_, bind_of_error untold, rfl⟩⟩

end SignedOrders
