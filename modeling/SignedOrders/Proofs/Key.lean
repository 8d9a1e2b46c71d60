import SignedOrders.FillOrder
import SignedOrders.Proofs.Failure

/-!
# Keys that do not suit a chain

A public key can be refused: its text is not one of octets, its octets are no key, or its curve
is not that of the chain.  A fill order is not made of such a key, and for no other reason.
-/

namespace SignedOrders

/-- A public key cannot be brought into the form of a chain. -/
def Cause.RefusesKey : Cause → Prop
  | keyNotHex _ | noAddressOnCurve _ | keyLength _ | keyNotAPoint | curveNotForNeo _
  | keyNotForNeo _ => True
  | _ => False

/-- The failure by such a cause belongs to the signing on chains. -/
theorem Cause.RefusesKey.of_eq {cause : Cause} (h : cause.RefusesKey) :
    Failure.of cause = ⟨cause, some .blockchainSigning⟩ := by
  cases cause <;> first | rfl | exact h.elim

/-- The failure by a cause for which a key is refused. -/
def Failure.RefusesKey (e : Failure) : Prop := ∃ cause : Cause, cause.RefusesKey ∧ .of cause = e

theorem Failure.refusesKey_of {cause : Cause} (h : cause.RefusesKey) :
    (Failure.of cause).RefusesKey :=
  ⟨cause, h, rfl⟩

namespace Key

variable {key : Key} {e : Failure}

theorem octets_error (h : key.octets = .error e) : e.RefusesKey := by
  obtain ⟨-, rfl⟩ := orFail_eq_error.1 h
  exact Failure.refusesKey_of trivial

theorem coordinates_error {octets : Octets} (h : coordinates octets = .error e) :
    e.RefusesKey := by
  unfold coordinates at h
  split at h
  · obtain ⟨-, rfl⟩ := orFail_eq_error.1 h
    exact Failure.refusesKey_of trivial
  split at h
  · cases h
  split at h
  · cases h
  · cases h
    exact Failure.refusesKey_of trivial

theorem account_error (h : key.account = .error e) : e.RefusesKey := by
  unfold account at h
  split at h
  · cases h
    exact Failure.refusesKey_of trivial
  rcases bind_eq_error.1 h with failed | ⟨octets, -, h⟩
  · exact octets_error failed
  rcases bind_eq_error.1 h with failed | ⟨pair, -, h⟩
  · exact coordinates_error failed
  · cases h

theorem neo_error (h : key.neo = .error e) : e.RefusesKey := by
  unfold neo at h
  split at h
  · cases h
    exact Failure.refusesKey_of trivial
  rcases bind_eq_error.1 h with failed | ⟨octets, -, h⟩
  · exact octets_error failed
  split at h
  · cases h
  split at h
  · cases h
  · cases h
    exact Failure.refusesKey_of trivial

end Key

/-- A fill order is not made only of a key that does not suit the chain. -/
theorem FillOrder.make_error {chain : Chain} {source : Amount} {destination : Asset} {key : Key}
    {c : Combination} {e : Failure} (h : make chain source destination key c = .error e) :
    e.RefusesKey := by
  cases chain with
  | ethereum => exact Key.account_error (map_eq_error.1 h)
  | bitcoin => cases h
  | neo => exact Key.neo_error (map_eq_error.1 h)

end SignedOrders
