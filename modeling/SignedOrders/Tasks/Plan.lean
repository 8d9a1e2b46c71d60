/-!
# Plans of tasks

A **plan** is what a task does, as a tree of steps.  Tasks share data of type `σ`,
which is guarded by a lock that many readers or one writer can hold, and a
turnstile that one task at a time can pass.  A plan

* looks at the data under the lock and goes on by what it has seen (`shared`);
* changes the data under the lock, or fails and leaves it (`exclusive`);
* holds the lock until it is told to let go, and goes on by what it was told (`hold`);
* asks a question of the world outside and waits for the answer, with or without the
  lock (`ask`);
* holds the turnstile from some point to its end (`serial`).

A task that asks under the lock keeps it until the answer has come; nothing in a plan
keeps tasks from doing so.  `evaluate` is the meaning of a plan for a task that is alone.
-/

namespace SignedOrders.Tasks

/-- The two ways of holding the lock. -/
inductive Mode where
  | shared
  | exclusive
  deriving DecidableEq, Repr

/-- How a task ends. -/
inductive Outcome (ε α : Type) where
  | returned (value : α)
  | failed (error : ε)
  | cancelled
  deriving Repr

/-- The outcome of a computation. -/
def Outcome.ofExcept : Except ε α → Outcome ε α
  | .ok a => .returned a
  | .error e => .failed e

/-- The questions that tasks ask of the world outside, each with the type of its
answers. -/
structure Interface where
  Question : Type
  Answer : Question → Type

/-- The world outside as tasks find it. -/
structure World (I : Interface) where
  /-- The answer to a question. -/
  answer : (question : I.Question) → I.Answer question
  /-- The number of turns of the ready tasks that the answer takes; none if it is
  there at once. -/
  turns : I.Question → Nat

/-- The interface without questions. -/
def Interface.silent : Interface := ⟨Empty, fun _ => Empty⟩

/-- The world that is asked nothing. -/
def World.silent : World Interface.silent where
  answer question := nomatch (question : Empty)
  turns question := nomatch (question : Empty)

/-- What a task does. -/
inductive Plan (I : Interface) (σ ε α : Type) : Type where
  /-- The end. -/
  | finish (outcome : Outcome ε α)
  /-- Looks at the data without the lock. -/
  | peek (look : σ → Plan I σ ε α)
  /-- Changes the data without the lock. -/
  | mark (change : σ → σ) (next : Plan I σ ε α)
  /-- Looks at the data under the shared lock, and lets go before it goes on. -/
  | shared (look : σ → Plan I σ ε α)
  /-- Changes the data under the exclusive lock, or fails. -/
  | exclusive (attempt : σ → Except ε σ) (next : Plan I σ ε α)
  /-- Takes the lock and holds it until the task is told to let go, and then goes on by
  what it was told. -/
  | hold (mode : Mode) (next : Outcome ε Unit → Plan I σ ε α)
  /-- Gives the lock back without having taken it. -/
  | relinquish (mode : Mode) (next : Plan I σ ε α)
  /-- Asks a question, and goes on by the answer.  With `under`, it takes the lock before,
  and holds it until the answer has come. -/
  | ask (under : Option Mode) (question : I.Question) (next : I.Answer question → Plan I σ ε α)
  /-- Passes the turnstile and holds it to the end of the task. -/
  | serial (next : Plan I σ ε α)

namespace Plan

variable {I : Interface} {σ ε α β : Type}

/-- The plan that gives a value. -/
def done (a : α) : Plan I σ ε α := .finish (.returned a)

/-- The plan that fails. -/
def throw (e : ε) : Plan I σ ε α := .finish (.failed e)

/-- The plan that gives the result of a computation. -/
def ofExcept (r : Except ε α) : Plan I σ ε α := .finish (.ofExcept r)

/-- A plan followed by one that goes on from the value it gives. -/
def bind : Plan I σ ε α → (α → Plan I σ ε β) → Plan I σ ε β
  | .finish (.returned a), f => f a
  | .finish (.failed e), _ => .finish (.failed e)
  | .finish .cancelled, _ => .finish .cancelled
  | .peek look, f => .peek fun s => (look s).bind f
  | .mark change next, f => .mark change (next.bind f)
  | .shared look, f => .shared fun s => (look s).bind f
  | .exclusive attempt next, f => .exclusive attempt (next.bind f)
  | .hold mode next, f => .hold mode fun told => (next told).bind f
  | .relinquish mode next, f => .relinquish mode (next.bind f)
  | .ask under question next, f => .ask under question fun a => (next a).bind f
  | .serial next, f => .serial (next.bind f)

instance : Monad (Plan I σ ε) where
  pure := done
  bind := bind

/-- The plan that holds the lock until it is told to let go, and ends as it was told. -/
def occupy (mode : Mode) : Plan I σ ε Unit := .hold mode .finish

/-- What is left of a plan that holds the lock when it is told to let go. -/
def afterHold (told : Outcome ε Unit) : Plan I σ ε α → Plan I σ ε α
  | .hold _ next => next told
  | plan => plan

/-- The plan that gives a part of the data, or fails, by what it sees under the
shared lock. -/
def read (look : σ → Except ε α) : Plan I σ ε α := .shared fun s => ofExcept (look s)

/-- The values of a plan for each item of a list, one after another. -/
def collect (f : α → Plan I σ ε β) (items : List α) : Plan I σ ε (List β) :=
  collectAfter [] items
where
  /-- The values for the items, after those collected so far, latest first. -/
  collectAfter (collected : List β) : List α → Plan I σ ε (List β)
    | [] => done collected.reverse
    | a :: rest => (f a).bind fun b => collectAfter (b :: collected) rest

/-- The data after a task that is alone and is answered by `respond`, and its
outcome.  A task that holds the lock is never told to let go, which counts as
cancelled. -/
def evaluate (respond : (q : I.Question) → I.Answer q) : σ → Plan I σ ε α → σ × Outcome ε α
  | s, .finish outcome => (s, outcome)
  | s, .peek look => evaluate respond s (look s)
  | s, .mark change next => evaluate respond (change s) next
  | s, .shared look => evaluate respond s (look s)
  | s, .exclusive attempt next =>
    match attempt s with
    | .ok t => evaluate respond t next
    | .error e => (s, .failed e)
  | s, .hold _ next => evaluate respond s (next .cancelled)
  | s, .relinquish _ next => evaluate respond s next
  | s, .ask _ question next => evaluate respond s (next (respond question))
  | s, .serial next => evaluate respond s next

end Plan

end SignedOrders.Tasks
