import SignedOrders.Failure
import SignedOrders.Json.Limits
import SignedOrders.Payload

/-!
# Canonical texts

The signature of a request covers the **canonical text** of its payload: the name
of the operation, a comma, and the payload as JSON text, which is the same for
equal payloads.  The signatures of the fill orders are left out, since they are
attached to the same payload; the request's own signature and the affiliate lie
outside of it.

A posting is written as JSON and read back before its text is made, so it has to keep
the limits of JSON texts as a whole, and the payload once more.
-/

namespace SignedOrders.Canonical

/-- The failure by what stands in the way of a text, if `cause` is that there is none.
Nesting that is too deep is a failure of its own. -/
def obstructed (cause : Cause) : Json.Obstacle → Failure
  | .malformed | .tooLong => .of cause
  | .tooDeep => .of .nestedTooDeep

/-- The canonical text of the payload in a posting written as JSON, without the
fields in `excluded`. -/
def ofPayload (limits : Json.Limits) (operation : String) (posting : Json)
    (excluded : List String) : Except Failure String :=
  match posting.get? "payload" with
  | some (.obj fields) =>
    match (Json.obj (Json.Fields.without fields (signaturesField :: excluded))).written limits with
    | .ok body => .ok (operation ++ "," ++ body)
    | .error obstacle => .error (obstructed (.payloadNotJson operation) obstacle)
  | _ => fail (.noPayload operation)

/-- The canonical text of a posting that is written as JSON and read back. -/
def ofTree (limits : Json.Limits) (operation : String) (posting : Json)
    (excluded : List String) : Except Failure String :=
  match posting.reread limits with
  | .ok posting => ofPayload limits operation posting excluded
  | .error obstacle => .error (obstructed (.notCanonical operation) obstacle)

/-- The canonical text of a posting. -/
def ofPosting [Wire π] (limits : Json.Limits) (operation : String) (posting : Posting π)
    (excluded : List String) : Except Failure String :=
  ofTree limits operation (toJson .canonical posting) excluded

end SignedOrders.Canonical
