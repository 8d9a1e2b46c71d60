/-!
# Issues found in a request

Input from outside is checked field by field.  An **issue** says where a value
was refused and why; a refused input carries all its issues, in the order of the
fields.
-/

namespace SignedOrders.Intake

/-- A step from a value into one of its parts. -/
inductive Step where
  | field (name : String)
  | item (index : Nat)
  deriving DecidableEq, Repr

/-- Why a value is refused. -/
inductive Reason where
  | missing
  | textExpected
  | textTooShort
  | notAmongNames
  | notAmongLiterals
  | flagExpected
  | unreadableFlag
  | integerExpected
  | unreadableInteger
  | fractionalInteger
  | integerTooLarge
  | decimalExpected
  | unreadableDecimal
  | infiniteDecimal
  | tooSmall
  | belowLeast
  | listExpected
  | objectExpected
  | timeExpected
  | unreadableTime
  | timeOutOfRange
  /-- A rule on the value as a whole is broken; `message` says which. -/
  | broken (message : String)
  deriving DecidableEq, Repr

namespace Reason

/-- The code by which a client recognises the reason. -/
def code : Reason → String
  | missing => "missing"
  | textExpected => "string_type"
  | textTooShort => "string_too_short"
  | notAmongNames => "enum"
  | notAmongLiterals => "literal_error"
  | flagExpected => "bool_type"
  | unreadableFlag => "bool_parsing"
  | integerExpected => "int_type"
  | unreadableInteger => "int_parsing"
  | fractionalInteger => "int_from_float"
  | integerTooLarge => "int_parsing_size"
  | decimalExpected => "decimal_type"
  | unreadableDecimal => "decimal_parsing"
  | infiniteDecimal => "finite_number"
  | tooSmall => "greater_than"
  | belowLeast => "greater_than_equal"
  | listExpected => "list_type"
  | objectExpected => "model_type"
  | timeExpected => "datetime_type"
  | unreadableTime => "datetime_from_date_parsing"
  | timeOutOfRange => "datetime_parsing"
  | broken _ => "value_error"

/-- The text that goes with a broken rule. -/
def message? : Reason → Option String
  | broken message => some ("Value error, " ++ message)
  | _ => none

end Reason

/-- A refused value: the way to it from the whole input, and the reason. -/
structure Issue where
  place : List Step
  reason : Reason
  deriving DecidableEq, Repr

/-- The issue seen from the value that contains its place as `step`. -/
def Issue.inside (step : Step) (issue : Issue) : Issue :=
  { issue with place := step :: issue.place }

end SignedOrders.Intake
