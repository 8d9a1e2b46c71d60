import SignedOrders.Signer.Local

/-!
# Settings

What an installation is configured with: its environment and log level, defaults
for orders, and the keys of a local signer.  Settings are given by name or left at
their defaults.
-/

namespace SignedOrders

/-- The environment of an installation. -/
inductive Environment where
  | dev
  | paper
  | prod
  deriving DecidableEq, Repr

namespace Environment

/-- The name of the environment. -/
def name : Environment → String
  | dev => "dev"
  | paper => "paper"
  | prod => "prod"

/-- The environment of a given name. -/
def ofName? (s : String) : Option Environment := [dev, paper, prod].find? fun e => e.name == s

end Environment

/-- The settings of an installation. -/
structure Settings where
  environment : Environment
  appName : String
  logLevel : String
  affiliate : Option String
  pairSeparator : String
  maxWorkers : Int
  payloadKey : String
  ethereumKey : String
  bitcoinKey : String
  deriving DecidableEq, Repr

namespace Settings

/-- The settings of an installation that gives none. -/
def standard : Settings where
  environment := .dev
  appName := "dex-order-signer"
  logLevel := "INFO"
  affiliate := none
  pairSeparator := "_"
  maxWorkers := 2
  payloadKey := ""
  ethereumKey := ""
  bitcoinKey := ""

/-- The local signer with the keys of the settings, not started. -/
def localSigner (settings : Settings) : Except Failure LocalSigner :=
  LocalSigner.ofKeys settings.payloadKey
    [(.ethereum, settings.ethereumKey), (.bitcoin, settings.bitcoinKey)] settings.maxWorkers

end Settings

end SignedOrders
