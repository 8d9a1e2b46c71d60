import SignedOrders.Tasks.Plan

/-!
# The machine that runs tasks

Tasks run one at a time, and a running task goes on until it has to wait.  What it
waits for wakes it by putting it at the end of the queue of tasks that are ready.
A waiting task can be cancelled at any moment; it is then woken as well, and drops
what it was about to do when it runs next.  An answer from outside that takes some
turns comes as often to the head of that queue and goes to its end, before the task
goes on.  A task that asks under the lock holds it all the time, and gives it back
before it goes on, or ends because it was cancelled.

The lock counts its readers, says whether there is a writer, and counts the tasks
that want to write.  These are looked at and changed only by a task that has passed
the **gate**.  A task that has to wait for the lock leaves the gate and sleeps; when
the lock may have become free, all sleepers are woken, pass the gate again one by
one in the order in which they fell asleep, and look again.  Readers wait while
anyone wants to write, so that writers are not starved.

The gate and the turnstile are doors that one task at a time is in; tasks wait at a
door in the order of arrival.
-/

namespace SignedOrders.Tasks

/-- The doors that one task at a time is in. -/
inductive Door where
  | gate
  | turnstile
  deriving DecidableEq, Repr

/-- A door: whether a task is in it, and the tasks that wait, first come first. -/
structure Passage where
  occupied : Bool
  queue : List Nat
  deriving DecidableEq, Repr

/-- How it stands with what a task waits for. -/
inductive Wake where
  /-- It has not come. -/
  | pending
  /-- It has come, and the task is ready. -/
  | granted
  /-- The task was cancelled before it came. -/
  | cancelled
  /-- It has come, and then the task was cancelled. -/
  | revoked
  deriving DecidableEq, Repr

/-- Where a task is. -/
inductive Point (ε α : Type) where
  /-- At its beginning. -/
  | fresh
  /-- Waiting at the gate, to take the lock. -/
  | atGate (mode : Mode)
  /-- Asleep until the lock may be free. -/
  | asleep (mode : Mode)
  /-- Waiting at the gate after sleep; `interrupted` if it was cancelled asleep. -/
  | returning (mode : Mode) (interrupted : Bool)
  /-- Holding the lock until told. -/
  | inside (mode : Mode)
  /-- Waiting at the gate, to give the lock back. -/
  | leaving (mode : Mode)
  /-- Waiting for an answer, and holding the lock if `under` says so. -/
  | asking (under : Option Mode)
  /-- Its answer is on the way, and comes after some more turns. -/
  | answered (under : Option Mode) (turns : Nat)
  /-- Waiting at the turnstile. -/
  | atTurnstile
  /-- At its end. -/
  | ended (outcome : Outcome ε α)

/-- A task: what it still has to do, where it is, and how its waiting stands. -/
structure Thread (I : Interface) (σ ε α : Type) where
  plan : Plan I σ ε α
  point : Point ε α
  wake : Wake
  /-- What a task that holds the lock until told has been told. -/
  told : Option (Outcome ε Unit)
  /-- The task is in the turnstile. -/
  serial : Bool

/-- What the log of a machine tells of a task. -/
inductive Notice (ε α : Type) where
  /-- The task holds the lock until told. -/
  | acquired
  | ended (outcome : Outcome ε α)

/-- The state of all tasks, the lock, and the data it guards. -/
structure Machine (I : Interface) (σ ε α : Type) where
  data : σ
  readers : Int
  writing : Bool
  writersWaiting : Int
  /-- Tasks that sleep, in the order in which they fell asleep. -/
  sleepers : List Nat
  gate : Passage
  turnstile : Passage
  threads : List (Thread I σ ε α)
  /-- Tasks that can run, the next one first. -/
  ready : List Nat
  log : List (Nat × Notice ε α)

namespace Machine

variable {I : Interface} {σ ε α : Type}

/-- The machine before any task. -/
def initial (data : σ) : Machine I σ ε α where
  data
  readers := 0
  writing := false
  writersWaiting := 0
  sleepers := []
  gate := ⟨false, []⟩
  turnstile := ⟨false, []⟩
  threads := []
  ready := []
  log := []

variable (m : Machine I σ ε α)

/-! ## Tasks -/

/-- The machine with one task changed. -/
def modify (id : Nat) (f : Thread I σ ε α → Thread I σ ε α) : Machine I σ ε α :=
  { m with threads := m.threads.modify id f }

/-- How the waiting of a task stands. -/
def wakeOf (id : Nat) : Wake := ((m.threads[id]?).map (·.wake)).getD .cancelled

/-- Where a task is. -/
def pointOf? (id : Nat) : Option (Point ε α) := (m.threads[id]?).map (·.point)

/-- What a task has been told, if it has been told to let go. -/
def toldOf (id : Nat) : Option (Outcome ε Unit) := (m.threads[id]?).bind (·.told)

/-- The task waits at `point`, with `plan` to do from there. -/
def park (id : Nat) (point : Point ε α) (plan : Plan I σ ε α) : Machine I σ ε α :=
  m.modify id fun t => { t with plan, point, wake := .pending }

/-- The machine in which a task has not been told to let go, or has done so. -/
def untell (id : Nat) : Machine I σ ε α := m.modify id fun t => { t with told := none }

/-- What a task waits for has come. -/
def awaken (id : Nat) : Machine I σ ε α :=
  if m.wakeOf id = .pending then
    { m.modify id fun t => { t with wake := .granted } with ready := m.ready ++ [id] }
  else m

/-- The answer of a task is on the way, with `plan` to do when it comes after some
more turns. -/
def awaitAnswer (id : Nat) (under : Option Mode) (turns : Nat) (plan : Plan I σ ε α) :
    Machine I σ ε α :=
  { m.modify id fun t => { t with plan, point := .answered under turns, wake := .granted } with
    ready := m.ready ++ [id] }

/-- An entry in the log. -/
def report (id : Nat) (notice : Notice ε α) : Machine I σ ε α :=
  { m with log := m.log ++ [(id, notice)] }

/-! ## Doors -/

/-- The passage of a door. -/
def passage : Door → Passage
  | .gate => m.gate
  | .turnstile => m.turnstile

/-- The machine with the passage of a door changed. -/
def setPassage (door : Door) (p : Passage) : Machine I σ ε α :=
  match door with
  | .gate => { m with gate := p }
  | .turnstile => { m with turnstile := p }

/-- A task can go through the door at once: nobody is in it, and nobody waits who has
not given up. -/
def isOpen (door : Door) : Bool :=
  !(m.passage door).occupied && (m.passage door).queue.all fun id => m.wakeOf id = .cancelled

/-- A task is in the door. -/
def occupyDoor (door : Door) : Machine I σ ε α :=
  m.setPassage door { m.passage door with occupied := true }

/-- The first who waits at the door is woken. -/
def callNext (door : Door) : Machine I σ ε α :=
  match (m.passage door).queue with
  | [] => m
  | id :: _ => m.awaken id

/-- The task in the door leaves it, and the next is called. -/
def leaveDoor (door : Door) : Machine I σ ε α :=
  (m.setPassage door { m.passage door with occupied := false }).callNext door

/-- A task waits at the door. -/
def joinQueue (door : Door) (id : Nat) : Machine I σ ε α :=
  m.setPassage door { m.passage door with queue := (m.passage door).queue ++ [id] }

/-- A task no longer waits at the door. -/
def quitQueue (door : Door) (id : Nat) : Machine I σ ε α :=
  m.setPassage door { m.passage door with queue := (m.passage door).queue.erase id }

/-- A task that was called goes through the door. -/
def passDoor (door : Door) (id : Nat) : Machine I σ ε α := (m.quitQueue door id).occupyDoor door

/-- A task that was cancelled gives up waiting at the door; a call that it may have
had goes to the next. -/
def giveUp (door : Door) (id : Nat) : Machine I σ ε α :=
  let m := m.quitQueue door id
  if (m.passage door).occupied then m else m.callNext door

/-! ## The lock -/

/-- The lock can be taken. -/
def admits : Mode → Bool
  | .shared => !m.writing && m.writersWaiting == 0
  | .exclusive => !m.writing && m.readers == 0

/-- A task comes to take the lock. -/
def arrive : Mode → Machine I σ ε α
  | .shared => m
  | .exclusive => { m with writersWaiting := m.writersWaiting + 1 }

/-- The lock is taken. -/
def take : Mode → Machine I σ ε α
  | .shared => { m with readers := m.readers + 1 }
  | .exclusive => { m with writersWaiting := m.writersWaiting - 1, writing := true }

/-- All sleepers are woken. -/
def awakenSleepers : Machine I σ ε α := m.sleepers.foldl awaken m

/-- The lock is given back.  The sleepers are woken unless readers remain. -/
def release : Mode → Machine I σ ε α
  | .shared =>
    let m := { m with readers := m.readers - 1 }
    if m.readers = 0 then m.awakenSleepers else m
  | .exclusive => { m with writing := false }.awakenSleepers

/-- A task in the gate no longer wants the lock.  When it wanted to write, readers
may have waited for it. -/
def withdraw : Mode → Machine I σ ε α
  | .shared => m
  | .exclusive => { m with writersWaiting := m.writersWaiting - 1 }.awakenSleepers

/-- A task in the gate takes the lock, or falls asleep.  It leaves the gate either
way; the flag says whether it has the lock. -/
def tryTake (mode : Mode) (id : Nat) (plan : Plan I σ ε α) : Machine I σ ε α × Bool :=
  if m.admits mode then ((m.take mode).leaveDoor .gate, true)
  else
    let m := m.leaveDoor .gate
    ({ m with sleepers := m.sleepers ++ [id] }.park id (.asleep mode) plan, false)

/-- A task sets out to take the lock for the first step of `plan`. -/
def knock (mode : Mode) (id : Nat) (plan : Plan I σ ε α) : Machine I σ ε α × Bool :=
  if m.isOpen .gate then ((m.occupyDoor .gate).arrive mode).tryTake mode id plan
  else ((m.joinQueue .gate id).park id (.atGate mode) plan, false)

/-- A task sets out to give the lock back and then to follow `rest`.  The flag says
whether it has done so or has to wait. -/
def letGo (mode : Mode) (id : Nat) (rest : Plan I σ ε α) : Machine I σ ε α × Bool :=
  if m.isOpen .gate then (((m.occupyDoor .gate).release mode).leaveDoor .gate, true)
  else ((m.joinQueue .gate id).park id (.leaving mode) rest, false)

/-! ## Running -/

/-- A task ends. -/
def retire (id : Nat) (outcome : Outcome ε α) : Machine I σ ε α :=
  let serial := ((m.threads[id]?).map (·.serial)).getD false
  let m := if serial then m.leaveDoor .turnstile else m
  (m.modify id fun t =>
    { t with plan := .finish outcome, point := .ended outcome, wake := .granted,
             serial := false }).report id (.ended outcome)

/-- A task follows its plan until it has to wait or ends.  With `admitted`, it is
already where the first step of the plan wants to be: it has the lock, or is in the
turnstile. -/
def follow (m : Machine I σ ε α) (id : Nat) (admitted : Bool) : Plan I σ ε α → Machine I σ ε α
  | .finish outcome => m.retire id outcome
  | .peek look => follow m id false (look m.data)
  | .mark change next => follow { m with data := change m.data } id false next
  | .shared look =>
    let (m, has) := if admitted then (m, true) else m.knock .shared id (.shared look)
    if has then
      let seen := m.data
      let (m, free) := m.letGo .shared id (look seen)
      if free then follow m id false (look seen) else m
    else m
  | .exclusive attempt next =>
    let (m, has) := if admitted then (m, true) else m.knock .exclusive id (.exclusive attempt next)
    if has then
      match attempt m.data with
      | .ok data =>
        let (m, free) := { m with data }.letGo .exclusive id next
        if free then follow m id false next else m
      | .error e =>
        let (m, free) := m.letGo .exclusive id (.finish (.failed e))
        if free then m.retire id (.failed e) else m
    else m
  | .hold mode next =>
    let (m, has) := if admitted then (m, true) else m.knock mode id (.hold mode next)
    if has then
      let m := m.report id .acquired
      match m.toldOf id with
      | some told =>
        let (m, free) := (m.untell id).letGo mode id (next told)
        if free then follow m id false (next told) else m
      | none => m.park id (.inside mode) (.hold mode next)
    else m
  | .relinquish mode next =>
    let (m, free) := m.letGo mode id next
    if free then follow m id false next else m
  | .ask none question next => m.park id (.asking none) (.ask none question next)
  | .ask (some mode) question next =>
    let plan := .ask (some mode) question next
    let (m, has) := if admitted then (m, true) else m.knock mode id plan
    if has then m.park id (.asking (some mode)) plan else m
  | .serial next =>
    if admitted || m.isOpen .turnstile then
      follow ((m.occupyDoor .turnstile).modify id fun t => { t with serial := true }) id false next
    else (m.joinQueue .turnstile id).park id .atTurnstile (.serial next)

/-- A task that gives the lock back and then follows `rest`. -/
def departWith (mode : Mode) (id : Nat) (rest : Plan I σ ε α) : Machine I σ ε α :=
  let (m, free) := m.letGo mode id rest
  if free then m.follow id false rest else m

/-- A task that has the lock if `under` says so goes on with `rest`, without it. -/
def goOn (under : Option Mode) (id : Nat) (rest : Plan I σ ε α) : Machine I σ ε α :=
  match under with
  | none => m.follow id false rest
  | some mode => m.departWith mode id rest

/-- A task that has slept is in the gate again: it looks again, or gives up if it was
cancelled meanwhile. -/
def comeBack (mode : Mode) (id : Nat) (interrupted : Bool) (plan : Plan I σ ε α) :
    Machine I σ ε α :=
  if interrupted then ((m.withdraw mode).leaveDoor .gate).retire id .cancelled
  else
    let (m, has) := m.tryTake mode id plan
    if has then m.follow id true plan else m

/-- A task that has slept goes to the gate. -/
def goBack (mode : Mode) (id : Nat) (interrupted : Bool) (plan : Plan I σ ε α) :
    Machine I σ ε α :=
  if m.isOpen .gate then (m.occupyDoor .gate).comeBack mode id interrupted plan
  else (m.joinQueue .gate id).park id (.returning mode interrupted) plan

/-- A woken task runs until it has to wait again or ends. -/
def resume (id : Nat) : Machine I σ ε α :=
  match m.threads[id]? with
  | none => m
  | some t =>
    let called := t.wake == .granted
    match t.point with
    | .fresh => if called then m.follow id false t.plan else m.retire id .cancelled
    | .atGate mode =>
      if called then
        let (m, has) := ((m.passDoor .gate id).arrive mode).tryTake mode id t.plan
        if has then m.follow id true t.plan else m
      else (m.giveUp .gate id).retire id .cancelled
    | .asleep mode =>
      { m with sleepers := m.sleepers.erase id }.goBack mode id (!called) t.plan
    | .returning mode interrupted =>
      if called then (m.passDoor .gate id).comeBack mode id interrupted t.plan
      else (m.giveUp .gate id).goBack mode id true t.plan
    | .inside mode =>
      (m.untell id).departWith mode id
        (t.plan.afterHold (if called then t.told.getD .cancelled else .cancelled))
    | .leaving mode =>
      if called then
        (((m.passDoor .gate id).release mode).leaveDoor .gate).follow id false t.plan
      else (m.giveUp .gate id).retire id .cancelled
    | .asking under => m.goOn under id (.finish .cancelled)
    | .answered under turns =>
      if called then
        match turns with
        | 0 => m.goOn under id t.plan
        | turns + 1 => m.awaitAnswer id under turns t.plan
      else m.goOn under id (.finish .cancelled)
    | .atTurnstile =>
      if called then (m.quitQueue .turnstile id).follow id true t.plan
      else (m.giveUp .turnstile id).retire id .cancelled
    | .ended _ => m

/-! ## What can happen to a machine -/

/-- A new task with the given plan, which is ready to run.  Tasks are numbered in the
order of their start. -/
def start (plan : Plan I σ ε α) : Machine I σ ε α :=
  { m with
    threads := m.threads ++ [⟨plan, .fresh, .granted, none, false⟩]
    ready := m.ready ++ [m.threads.length] }

/-- The next ready task runs. -/
def run : Machine I σ ε α :=
  match m.ready with
  | [] => m
  | id :: rest => { m with ready := rest }.resume id

/-- A task is cancelled. -/
def cancel (id : Nat) : Machine I σ ε α :=
  match m.threads[id]? with
  | none => m
  | some t =>
    match t.point, t.wake with
    | .ended _, _ => m
    | _, .pending =>
      { m.modify id fun t => { t with wake := .cancelled } with ready := m.ready ++ [id] }
    | _, .granted => m.modify id fun t => { t with wake := .revoked }
    | _, _ => m

/-- A task that holds the lock until told is told to let go. -/
def tell (id : Nat) (told : Outcome ε Unit) : Machine I σ ε α :=
  let m := m.modify id fun t => { t with told := t.told.or (some told) }
  match m.pointOf? id with
  | some (.inside _) => m.awaken id
  | _ => m

/-- A task that waits for an answer is answered.  It goes on at once, unless the
answer takes some turns. -/
def reply (id : Nat) (world : World I) : Machine I σ ε α :=
  match m.threads[id]? with
  | some ⟨.ask _ question next, .asking under, .pending, _, _⟩ =>
    let plan := next (world.answer question)
    match world.turns question with
    | 0 => m.goOn under id plan
    | turns + 1 => m.awaitAnswer id under turns plan
  | _ => m

/-! ## Running until nothing can move -/

/-- A task that waits for an answer. -/
def asker? : Option Nat :=
  (List.range m.threads.length).find? fun id =>
    match m.threads[id]? with
    | some ⟨_, .asking _, .pending, _, _⟩ => true
    | _ => false

/-- The machine after every question is answered and every ready task has run, for at
most `fuel` moves. -/
def settle (world : World I) (fuel : Nat) (m : Machine I σ ε α) : Machine I σ ε α :=
  match fuel with
  | 0 => m
  | fuel + 1 =>
    match m.asker? with
    | some id => settle world fuel (m.reply id world)
    | none => if m.ready.isEmpty then m else settle world fuel m.run

/-- How a task has ended, if it has. -/
def outcome? (id : Nat) : Option (Outcome ε α) :=
  match m.pointOf? id with
  | some (.ended outcome) => some outcome
  | _ => none

end Machine

end SignedOrders.Tasks
