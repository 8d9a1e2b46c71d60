import SignedOrders.Failure
import SignedOrders.Json.Value

/-!
# Checks that collect every issue

A check either accepts a value in the form that the rest of the library uses, or
refuses it with all its issues.  Checks of the fields of an object are combined
by `<*>`, which keeps the issues of both sides in order (`seq_refused_refused`);
a rule on the whole is looked at only when all fields are accepted (`andThen`).
-/

namespace SignedOrders.Intake

/-- The outcome of a check. -/
inductive Checked (α : Type) where
  | accepted (value : α)
  | refused (issues : List Issue)

namespace Checked

/-- The accepted value changed by `f`. -/
def map (f : α → β) : Checked α → Checked β
  | accepted a => accepted (f a)
  | refused issues => refused issues

/-- A function and its argument, both checked. -/
def seq (f : Checked (α → β)) (a : Checked α) : Checked β :=
  match f, a with
  | accepted f, accepted a => accepted (f a)
  | accepted _, refused issues => refused issues
  | refused issues, accepted _ => refused issues
  | refused issues, refused more => refused (issues ++ more)

instance : Functor Checked where
  map := map

instance : Applicative Checked where
  pure := accepted
  seq f a := seq f (a ())

theorem seq_refused_refused (issues more : List Issue) (α β : Type) :
    (refused issues : Checked (α → β)) <*> (refused more : Checked α) =
      refused (issues ++ more) := rfl

/-- A further check of an accepted value. -/
def andThen (a : Checked α) (check : α → Checked β) : Checked β :=
  match a with
  | accepted a => check a
  | refused issues => refused issues

/-- The check seen from the value that contains what is checked as `step`. -/
def inside (step : Step) : Checked α → Checked α
  | accepted a => accepted a
  | refused issues => refused (issues.map (Issue.inside step))

/-- The outcome as a computation that fails on refused input. -/
def toExcept : Checked α → Except Failure α
  | accepted a => .ok a
  | refused issues => fail (.invalid issues)

end Checked

/-- A value refused for one reason. -/
def refuse (reason : Reason) : Checked α := .refused [⟨[], reason⟩]

/-- The field `key`, which has to be there. -/
def required (fields : Json.Fields) (key : String) (check : Json → Checked α) : Checked α :=
  match Json.Fields.get? fields key with
  | some v => (check v).inside (.field key)
  | none => .refused [⟨[.field key], .missing⟩]

/-- The field `key`, or `default` where it is missing. -/
def optional (fields : Json.Fields) (key : String) (default : α) (check : Json → Checked α) :
    Checked α :=
  match Json.Fields.get? fields key with
  | some v => (check v).inside (.field key)
  | none => .accepted default

/-- A check that also accepts null. -/
def nullable (check : Json → Checked α) : Json → Checked (Option α)
  | .null => .accepted none
  | v => (check v).map some

/-- A check of an object's fields. -/
def object (check : Json.Fields → Checked α) : Json → Checked α
  | .obj fields => check fields
  | _ => refuse .objectExpected

/-- Checks of the items of a list, from position `index` on. -/
def itemsFrom (check : Json → Checked α) (index : Nat) : List Json → Checked (List α)
  | [] => .accepted []
  | v :: rest => .cons <$> (check v).inside (.item index) <*> itemsFrom check (index + 1) rest

/-- A check of every item of a list. -/
def list (check : Json → Checked α) : Json → Checked (List α)
  | .arr items => itemsFrom check 0 items
  | _ => refuse .listExpected

end SignedOrders.Intake
