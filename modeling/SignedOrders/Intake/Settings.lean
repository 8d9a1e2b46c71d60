import SignedOrders.Intake.Scalar
import SignedOrders.Settings

/-!
# Checks of settings

Settings are taken from values given by the program and from variables of the
environment, which are texts; a given value counts before a variable of the same
name.
-/

namespace SignedOrders.Intake

/-- The name of an environment. -/
def environment : Json → Checked Environment
  | .str s =>
    match Environment.ofName? s with
    | some e => .accepted e
    | none => refuse .notAmongLiterals
  | _ => refuse .notAmongLiterals

/-- A number of workers. -/
def workers (v : Json) : Checked Int :=
  (integer v).andThen fun n => if n < 1 then refuse .belowLeast else .accepted n

/-- The given values, and the variables for names without one. -/
def overlay (values environment : Json.Fields) : Json.Fields :=
  values ++ Json.Fields.without environment (values.map (·.1))

/-- Settings by name. -/
def settings (fields : Json.Fields) : Checked Settings :=
  let standard := Settings.standard
  Settings.mk <$> optional fields "APP_ENV" standard.environment environment
    <*> optional fields "APP_NAME" standard.appName text
    <*> optional fields "LOG_LEVEL" standard.logLevel text
    <*> optional fields "AFFILIATE_DEVELOPER_CODE" standard.affiliate (nullable text)
    <*> optional fields "PAIR_SEPARATOR" standard.pairSeparator text
    <*> optional fields "SIGNER_MAX_WORKERS" standard.maxWorkers workers
    <*> optional fields "PAYLOAD_SIGNING_KEY" standard.payloadKey text
    <*> optional fields "ETH_CHILD_KEY" standard.ethereumKey text
    <*> optional fields "BTC_CHILD_KEY" standard.bitcoinKey text

end SignedOrders.Intake
