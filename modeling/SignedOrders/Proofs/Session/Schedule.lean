import SignedOrders.Proofs.Session.Build
import SignedOrders.Proofs.Tasks.Turnstile
import SignedOrders.Proofs.Tasks.Changes
import SignedOrders.Session.Operation

/-!
# Schedules of a session

A session is made once, and then things happen to it in any order: operations are started,
tasks that are ready run, and tasks are cancelled, told to let go, or answered at any time.
A **schedule** is a session with all that happens to it, one event after another.

Whatever the schedule, the session changes only as the operations say that are running
(`Schedule.data_succ`).
-/

namespace SignedOrders.Session

open Tasks Relation

/-- What can happen to a running session. -/
inductive Event where
  | operate (operation : Operation)
  /-- A task runs if it is ready. -/
  | turn (id : Nat)
  | cancel (id : Nat)
  | tell (id : Nat) (told : Outcome Failure Unit)
  | reply (id : Nat) (world : World signing)

/-- The move of the machine that an event is, after a number of tasks have started. -/
def Event.move (service : Service) (started : Nat) : Event → Move signing Session Failure Reply
  | operate operation => .start (operation.plan service started)
  | turn id => .turn id
  | cancel id => .cancel id
  | tell id told => .tell id told
  | reply id world => .reply id world

/-- A session that has been made of some input, and what happens to it. -/
structure Schedule where
  service : Service
  start : Session
  made : ∃ markets signer nonces, Session.new markets signer nonces = .ok start
  events : Nat → Event

namespace Schedule

variable (h : Schedule)

/-- The machine before an event. -/
def state : Nat → Run
  | 0 => Machine.initial h.start
  | k + 1 => Machine.move (state k) ((h.events k).move h.service (state k).threads.length)

/-- The move of the machine at an event. -/
def move (k : Nat) : Move signing Session Failure Reply :=
  (h.events k).move h.service (h.state k).threads.length

/-- The session before an event. -/
def data (k : Nat) : Session := (h.state k).data

/-- The operations that have started before an event, each at the number of its task. -/
def operations : Nat → List Operation
  | 0 => []
  | k + 1 =>
    match h.events k with
    | .operate operation => operations k ++ [operation]
    | _ => operations k

/-- A task performs an operation. -/
def Performs (id : Nat) (operation : Operation) : Prop :=
  ∃ k, (h.operations k)[id]? = some operation

/-- The lists have, for each event, the tasks that have changed the data under the exclusive
lock in it. -/
def Traced (writes : Nat → List Nat) : Prop :=
  ∀ k, Machine.Step (h.state k) (h.move k) (writes k) (h.state (k + 1))

end Schedule

theorem new_eq_ok {markets : List Market} {signer : Option Signer}
    {nonces : Option (List (String × List Int))} {s : Session} :
    Session.new markets signer nonces = .ok s ↔ ∃ pools, nonces.mapM Pools.install = .ok pools ∧
      s = { catalog := .ofList markets, signer, pools, requests := [] } := by
  unfold Session.new
  rw [bind_eq_ok]
  constructor
  · rintro ⟨pools, installed, made⟩
    exact ⟨pools, installed, (Except.ok.inj made).symm⟩
  · rintro ⟨pools, installed, rfl⟩
    exact ⟨pools, installed, rfl⟩

/-! ## What operations change -/

/-- A change of the session in the course of an operation that a task performs. -/
inductive Change (service : Service) (id : Nat) : Operation → Session → Session → Prop where
  | catalog {markets s} :
      Change service id (.setMarkets markets) s { s with catalog := .ofList markets }
  | signer {signer s} : Change service id (.setSigner signer) s { s with signer }
  | pools {nonces pools s} (installed : Pools.install nonces = .ok pools) :
      Change service id (.replacePools nonces) s { s with pools := some pools }
  | advance {consumed s t} (advanced : s.advance consumed = .ok t) :
      Change service id (.advance consumed) s t
  | limits {time requests asked request s}
      (course : Course (fun _ => True) (Build.limits service time requests) asked
        (.returned request)) :
      Change service id (.limitOrders time requests) s (s.enroll id request)
  | market {time given asked request s}
      (course : Course (fun _ => True) (Build.market service time given) asked
        (.returned request)) :
      Change service id (.marketOrder time given) s (s.enroll id request)
  | consume {of settled s t} (request : SignedRequest)
      (advanced : s.advance (request.consumed settled) = .ok t) :
      Change service id (.commit of settled) s t
  | mark {of settled s} :
      Change service id (.commit of settled) s
        (s.revise of fun request => { request with committed := true })

theorem within_read {P : Session → Session → Prop} (look : Session → Except Failure α) :
    (Plan.read look : Action α).Within P := by
  intro s
  show (Plan.ofExcept (look s)).Within P
  cases look s <;> trivial

theorem within_update {P : Session → Session → Prop} {change : Session → Session}
    (hP : ∀ s, P s (change s)) : (update change).Within P := by
  refine ⟨fun s t ht => ?_, trivial⟩
  cases ht
  exact hP s

theorem within_keep {P : Session → Session → Prop} {id : Nat} {build : Action SignedRequest}
    (reads : ReadOnly build)
    (hP : ∀ asked request, Course (fun _ => True) build asked (.returned request) →
      ∀ s, P s (s.enroll id request)) : (keep id build).Within P :=
  reads.within_bind fun asked request course => ⟨hP asked request course, trivial⟩

theorem within_commitPlan {P : Session → Session → Prop} {id : Nat}
    {settled : Option (List Combination)}
    (consume : ∀ request s t, Session.advance s (SignedRequest.consumed request settled) = .ok t →
      P s t)
    (mark : ∀ s, P s (s.revise id fun request => { request with committed := true })) :
    (commitPlan id settled).Within P := by
  intro s
  dsimp only
  split
  · trivial
  · split
    · trivial
    · exact ⟨consume _, mark, trivial⟩

/-- **An operation changes the session only as it says.** -/
theorem within_plan (service : Service) (id : Nat) (operation : Operation) :
    (operation.plan service id).Within (Change service id operation) := by
  cases operation with
  | getMarket name => exact within_read _
  | resolve name => exact within_read _
  | pool asset => exact within_read _
  | marketNames => exact within_read _
  | signerKind => exact within_read _
  | setMarkets markets => exact within_update fun s => .catalog
  | setSigner signer => exact within_update fun s => .signer
  | replacePools nonces =>
    rw [Operation.plan]
    cases installed : Pools.install nonces with
    | ok pools => exact within_update fun s => .pools installed
    | error e => trivial
  | advance consumed => exact ⟨fun s t advanced => .advance advanced, trivial⟩
  | limitOrders time requests =>
    exact within_keep (Build.readOnly_limits service time requests) fun _ _ course _ =>
      .limits course
  | marketOrder time given =>
    exact within_keep (Build.readOnly_market service time given) fun _ _ course _ =>
      .market course
  | commit of settled =>
    exact within_commitPlan (fun request _ _ advanced => .consume request advanced) fun _ => .mark
  | hold =>
    intro told
    cases told <;> trivial
  | idle => trivial

namespace Schedule

variable {h : Schedule} {j k id : Nat} {operation : Operation}

/-! ## The machine of a schedule -/

theorem state_succ (h : Schedule) (k : Nat) :
    h.state (k + 1) = Machine.move (h.state k) (h.move k) := rfl

theorem settled (h : Schedule) (k : Nat) : Machine.Settled (h.state k) := by
  induction k with
  | zero => exact Machine.settled_initial h.start
  | succ k ih => exact ih.move _

/-- Every schedule has a trace. -/
theorem exists_traced (h : Schedule) : ∃ writes, h.Traced writes :=
  ⟨fun k => Classical.choose ((h.settled k).exists_step (h.move k)), fun k =>
    Classical.choose_spec ((h.settled k).exists_step (h.move k))⟩

theorem exists_step (h : Schedule) (k : Nat) :
    ∃ wrote, Machine.Step (h.state k) (h.move k) wrote (h.state (k + 1)) :=
  (h.settled k).exists_step (h.move k)

theorem orderly (h : Schedule) (k : Nat) : Machine.Orderly (h.state k) none := by
  induction k with
  | zero => exact Machine.orderly_initial h.start
  | succ k ih =>
    obtain ⟨wrote, goes⟩ := h.exists_step k
    exact ih.step (h.settled k) goes

/-! ## The operations of tasks -/

theorem length_operations (h : Schedule) (k : Nat) :
    (h.operations k).length = (h.state k).threads.length := by
  induction k with
  | zero => rfl
  | succ k ih =>
    obtain ⟨wrote, goes⟩ := h.exists_step k
    cases event : h.events k with
    | operate operation =>
      rw [operations, event, state_succ, move, event]
      show (h.operations k ++ [operation]).length = ((h.state k).threads ++ [_]).length
      rw [List.length_append, List.length_append, ih]
      rfl
    | _ =>
      rw [goes.length_eq (h.settled k) (by rw [move, event]; rintro _ ⟨⟩), ← ih, operations, event]

theorem operation_later (hjk : j ≤ k) (hj : (h.operations j)[id]? = some operation) :
    (h.operations k)[id]? = some operation := by
  induction hjk with
  | refl => exact hj
  | @step k _ ih =>
    rw [operations]
    split
    · rw [List.getElem?_append_left (List.getElem?_eq_some_iff.1 ih).1]
      exact ih
    · exact ih

theorem length_mono (h : Schedule) (hjk : j ≤ k) :
    (h.state j).threads.length ≤ (h.state k).threads.length := by
  induction hjk with
  | refl => exact Nat.le_refl _
  | @step k _ ih =>
    refine Nat.le_trans ih ?_
    rw [← length_operations, ← length_operations, operations]
    split
    · rw [List.length_append]
      omega
    · exact Nat.le_refl _

/-- A task performs one operation. -/
theorem Performs.unique {other : Operation} (hop : h.Performs id operation)
    (hother : h.Performs id other) : operation = other := by
  obtain ⟨j, hj⟩ := hop
  obtain ⟨k, hk⟩ := hother
  rcases Nat.le_total j k with hjk | hkj
  · exact Option.some.inj ((operation_later hjk hj).symm.trans hk)
  · exact Option.some.inj (hj.symm.trans (operation_later hkj hk))

/-- Every task performs an operation. -/
theorem exists_performs {t : Thread signing Session Failure Reply}
    (found : (h.state k).scene[id]? = some t) : ∃ operation, h.Performs id operation := by
  have present := (List.getElem?_eq_some_iff.1 found).1
  rw [Machine.length_scene, ← length_operations] at present
  exact ⟨_, k, List.getElem?_eq_getElem present⟩

/-- A task that is started performs the operation that is started. -/
theorem performs_of_start {plan : Action Reply} (start : h.move k = .start plan) :
    ∃ operation, h.events k = .operate operation ∧
      plan = operation.plan h.service (h.state k).threads.length ∧
        h.Performs (h.state k).threads.length operation := by
  unfold move at start
  cases event : h.events k with
  | operate operation =>
    rw [event] at start
    cases start
    refine ⟨operation, rfl, rfl, k + 1, ?_⟩
    rw [operations, event, ← length_operations, List.getElem?_concat_length]
  | _ =>
    rw [event] at start
    cases start

/-! ## How the session changes -/

/-- A task changes the session as its operation says. -/
def Changes (h : Schedule) (id : Nat) (s t : Session) : Prop :=
  ∃ operation, h.Performs id operation ∧ Change h.service id operation s t

/-- A task that is started is given its operation. -/
theorem within_of_start (h : Schedule) (k : Nat) :
    ∀ plan, h.move k = .start plan → plan.Within (h.Changes (h.state k).threads.length) := by
  intro plan start
  obtain ⟨operation, -, rfl, performs⟩ := performs_of_start start
  exact (within_plan _ _ operation).mono fun s t change => ⟨operation, performs, change⟩

theorem abides (h : Schedule) (k : Nat) : Machine.Abides h.Changes (h.state k) := by
  induction k with
  | zero => exact Machine.abides_initial h.start
  | succ k ih =>
    obtain ⟨wrote, goes⟩ := h.exists_step k
    exact (ih.step goes (h.within_of_start k)).1

/-- **From one event to the next, the session changes only as the operation says that the
running task performs.** -/
theorem data_succ (h : Schedule) (k : Nat) :
    h.data (k + 1) = h.data k ∨ ∃ id operation, (h.move k).task? = some id ∧
      h.Performs id operation ∧
        ReflTransGen (Change h.service id operation) (h.data k) (h.data (k + 1)) := by
  obtain ⟨wrote, goes⟩ := h.exists_step k
  rcases ((h.abides k).step goes (h.within_of_start k)).2 with same | ⟨id, moves, changed⟩
  · exact .inl same
  · rcases changed.cases_head with same | ⟨s, ⟨operation, performs, -⟩, -⟩
    · exact .inl same.symm
    · refine .inr ⟨id, operation, moves, performs, ReflTransGen.mono ?_ _ _ changed⟩
      rintro s t ⟨other, performs', change⟩
      rwa [performs.unique performs']

/-- What every change keeps holds at all times. -/
theorem data_induction {P : Session → Prop} (h : Schedule) (start : P h.start)
    (change : ∀ id operation s t, Change h.service id operation s t → P s → P t) (k : Nat) :
    P (h.data k) := by
  induction k with
  | zero => exact start
  | succ k ih =>
    rcases h.data_succ k with same | ⟨id, operation, -, -, changed⟩
    · rwa [same]
    · have keeps {t : Session}
          (changed : ReflTransGen (Change h.service id operation) (h.data k) t) : P t := by
        induction changed with
        | refl => exact ih
        | tail _ last ih => exact change id operation _ _ last ih
      exact keeps changed

end Schedule

end SignedOrders.Session
