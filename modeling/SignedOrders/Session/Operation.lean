import SignedOrders.Session.Build
import SignedOrders.Tasks.Machine

/-!
# Operations on a session

Every operation is the plan of a task: lookups under the shared lock, updates under
the exclusive lock, builds, and commits.  A **commit** consumes the nonces of a signed
request once.  Commits go through the turnstile one at a time; one that finds its
request committed does nothing.

A session runs operations as the tasks of one machine.  Each command starts one task,
so that the number of a task is the number of its command.
-/

namespace SignedOrders.Session

open Tasks

/-- What can be done with a session. -/
inductive Operation where
  | getMarket (name : String)
  | resolve (name : String)
  | pool (asset : String)
  | marketNames
  | signerKind
  | setMarkets (markets : List Market)
  | setSigner (signer : Option Signer)
  | replacePools (nonces : List (String × List Int))
  | advance (consumed : List (String × List Int))
  | limitOrders (time : Int) (requests : List LimitRequest)
  | marketOrder (time : Int) (request : MarketRequest)
  /-- Commits the request that a task has built, for the given combinations or all. -/
  | commit (id : Nat) (settled : Option (List Combination))
  /-- Holds the shared lock until told to let go. -/
  | hold
  /-- Does nothing. -/
  | idle

/-- What an operation gives. -/
inductive Reply where
  | done
  | market (market : Market)
  | pool (nonces : List Int)
  | names (names : List String)
  | signer (kind : SignerKind)
  | built (request : SignedRequest)
  /-- Whether a commit has consumed nonces. -/
  | committed (now : Bool)
  | letGo

/-- A build, whose result is kept under the number of its task. -/
def keep (id : Nat) (build : Action SignedRequest) : Action Reply :=
  build.bind fun request => .mark (fun s => s.enroll id request) (.done (.built request))

/-- The consumption of the nonces of a signed request. -/
def commitPlan (id : Nat) (settled : Option (List Combination)) : Action Reply :=
  .serial (.peek fun s =>
    match s.request? id with
    | none => .done (.committed false)
    | some request =>
      if request.committed then .done (.committed false)
      else
        .exclusive (fun s => s.advance (request.consumed settled))
          (.mark (fun s => s.revise id fun request => { request with committed := true })
            (.done (.committed true))))

/-- An update that does not fail. -/
def update (change : Session → Session) : Action Reply :=
  .exclusive (fun s => .ok (change s)) (.done .done)

namespace Operation

/-- What a task with the number `id` does to perform the operation. -/
def plan (service : Service) (id : Nat) : Operation → Action Reply
  | getMarket name => Plan.read fun s => (s.catalog.get name).map .market
  | resolve name => Plan.read fun s => (s.catalog.resolve service.separator name).map .market
  | pool asset => Plan.read fun s => (s.pool asset).map .pool
  | marketNames => Plan.read fun s => .ok (.names s.catalog.names)
  | signerKind => Plan.read fun s => s.getSigner.map fun signer => .signer signer.kind
  | setMarkets markets => update fun s => { s with catalog := .ofList markets }
  | setSigner signer => update fun s => { s with signer }
  | replacePools nonces =>
    match Pools.install nonces with
    | .ok pools => update fun s => { s with pools := some pools }
    | .error failure => .throw failure
  | advance consumed => .exclusive (fun s => s.advance consumed) (.done .done)
  | limitOrders time requests => keep id (Build.limits service time requests)
  | marketOrder time request => keep id (Build.market service time request)
  | commit of settled => commitPlan of settled
  | hold => (Plan.occupy .shared).bind fun _ => .done .letGo
  | idle => .done .done

end Operation

/-! ## Runs -/

/-- A session with its tasks. -/
abbrev Run := Machine signing Session Failure Reply

/-- What is done to a running session. -/
inductive Command where
  | operate (operation : Operation)
  /-- An operation whose input was refused. -/
  | refuse (failure : Failure)
  /-- Tells a task that holds the lock to let go. -/
  | release (id : Nat)
  | cancel (id : Nat)
  /-- Changes the combinations of a signed request. -/
  | resign (id : Nat) (combinations : List Combination)

namespace Run

/-- The number of moves that are enough for any command. -/
def patience : Nat := 0x10000000000000000

/-- The run after a command, not yet settled. -/
def issue (service : Service) (run : Run) : Command → Run
  | .operate operation => Machine.start run (operation.plan service run.threads.length)
  | .refuse failure => Machine.start run (.throw failure)
  | .release id => Machine.start (Machine.tell run id (.returned ())) (.done .done)
  | .cancel id => Machine.start (Machine.cancel run id) (.done .done)
  | .resign id combinations =>
    { run with data := run.data.revise id fun request => { request with combinations } }

/-- The run after a command, when nothing can move any more. -/
def perform (service : Service) (run : Run) (command : Command) : Run :=
  (run.issue service command).settle world patience

end Run

end SignedOrders.Session
