import SignedOrders.Failure
import SignedOrders.Json.Value

/-!
# The journal

Events are reported at a level by a named part of the program.  The journal is set
up by the first event, and from then on has one outlet, which lets through the
events that are at least as grave as the level of the settings.  Outside of
development each event that gets through is a line of JSON.
-/

namespace SignedOrders

/-- How grave an event is. -/
inductive Level where
  /-- Lets everything through. -/
  | unset
  | debug
  | info
  | warning
  | error
  | critical
  deriving DecidableEq, Repr

namespace Level

/-- A number that grows with the gravity. -/
def severity : Level → Nat
  | unset => 0
  | debug => 10
  | info => 20
  | warning => 30
  | error => 40
  | critical => 50

/-- The name of the level in settings. -/
def name : Level → String
  | unset => "NOTSET"
  | debug => "DEBUG"
  | info => "INFO"
  | warning => "WARNING"
  | error => "ERROR"
  | critical => "CRITICAL"

/-- The name of the level in a line. -/
def lineName (level : Level) : String := level.name.map Char.toLower

/-- The names of levels in settings, two of which stand for a level with another
name. -/
def names : List (String × Level) :=
  [("NOTSET", unset), ("DEBUG", debug), ("INFO", info), ("WARNING", warning), ("WARN", warning),
    ("ERROR", error), ("CRITICAL", critical), ("FATAL", critical)]

/-- The capital that a letter of a level's name stands for; two letters beyond
ASCII have ASCII capitals. -/
def capital (c : Char) : Char :=
  if c = 'ı' then 'I' else if c = 'ſ' then 'S' else c.toUpper

/-- The level of a name in any case. -/
def ofName? (s : String) : Option Level := names.lookup (s.map capital)

end Level

/-- The reporters of events and their levels. -/
def Level.reporters : List (String × Level) :=
  [("debug", debug), ("info", info), ("warning", warning), ("warn", warning), ("error", error),
    ("exception", error), ("critical", critical), ("fatal", critical)]

/-- An event that is reported. -/
structure Event where
  logger : String
  /-- The name of the reporter. -/
  reporter : String
  event : String
  fields : Json.Fields

namespace Event

/-- The fields that name something a reporter is told anyway. -/
def taken : List String := ["event", "self", "method_name"]

/-- The field under which events of other programs carry their record. -/
def recordField : String := "_record"

/-- The fields that are not written: the moment of the event, and what events carry
on their way to the outlet. -/
def unwritten : List String := ["timestamp", "stack_info", recordField, "_from_structlog"]

/-- The level of an event, which its reporter determines.  Fields have to leave alone
what the reporter puts there. -/
def level (e : Event) : Except Failure Level := do
  let level ← orFail (.unknownReporter e.reporter) (Level.reporters.lookup e.reporter)
  match e.fields.find? fun field => taken.contains field.1 with
  | some field => fail (.fieldTaken field.1)
  | none =>
    match Json.Fields.get? e.fields recordField with
    | none | some .null => return level
    | some _ => fail .foreignRecord

/-- The fields of an event, with those that its reporter adds. -/
def allFields (e : Event) : Json.Fields :=
  if e.reporter = "exception" ∧ (Json.Fields.get? e.fields "exc_info").isNone then
    Json.Fields.set e.fields "exc_info" (.bool true)
  else e.fields

/-- The name of the logger in a line; the one without a name is the root of all. -/
def loggerName (e : Event) : String := if e.logger = "" then "root" else e.logger

/-- The line of an event at a level. -/
def line (e : Event) (level : Level) : Json :=
  let fields := Json.Fields.without e.allFields unwritten
  .obj (Json.Fields.set (Json.Fields.set (Json.Fields.set fields "event" (.str e.event))
    "level" (.str level.lineName)) "logger" (.str e.loggerName))

end Event

/-- A journal and the lines it has written. -/
structure Journal where
  configured : Bool
  outlets : Nat
  level : Level
  lines : List Json

namespace Journal

/-- The journal before the first event. -/
def fresh : Journal := ⟨false, 0, .warning, []⟩

/-- The journal after an event, in development or not, under the level that the
settings name. -/
def report (journal : Journal) (development : Bool) (levelName : String) (e : Event) :
    Except Failure Journal := do
  let journal ←
    if journal.configured then pure journal
    else do
      let level ← orFail (.unknownName levelName) (Level.ofName? levelName)
      pure { journal with configured := true, outlets := 1, level }
  let level ← e.level
  if development ∨ level.severity < journal.level.severity then return journal
  else return { journal with lines := journal.lines ++ [e.line level] }

/-- The journal after some events. -/
def ofEvents (development : Bool) (levelName : String) (events : List Event) :
    Except Failure Journal :=
  events.foldlM (fun journal e => journal.report development levelName e) fresh

end Journal

end SignedOrders
