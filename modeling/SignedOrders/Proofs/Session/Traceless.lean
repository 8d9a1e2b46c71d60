import SignedOrders.Proofs.Session.Operations
import SignedOrders.Proofs.Session.Updates
import SignedOrders.Proofs.Tasks.Rest

/-!
# Abandoned work leaves no trace

Builds, lookups, commits and updates run interleaved in a session; some fail, and some are
cancelled while they wait.  The markets, the signer and the nonce pools are at any time what the
updates make of them that have been made under the exclusive lock, one after another in the
order in which their tasks took the lock.

All other tasks might as well not have been started: the operations that have made these updates
come to the same when each of them is started after the one before it has ended
(`Schedule.exists_consecutive`).  And when all tasks have ended, the lock is free
(`Schedule.unlocked`).
-/

namespace SignedOrders.Session

open Tasks

/-- A run that performs operations one after another: each is started when all before it have
ended, and makes its update. -/
inductive Consecutive (service : Service) (s : Session) : List Operation → Run → Prop where
  | initial : Consecutive service s [] (Machine.initial s)
  | next {operations run operation reply} (before : Consecutive service s operations run)
      (rests : Machine.Idle run) (patience : Nat) (receipt : operation.receipt? = some reply)
      (returned : ((run.issue service (.operate operation)).settle world patience).outcome?
        run.threads.length = some (.returned reply)) :
      Consecutive service s (operations ++ [operation])
        ((run.issue service (.operate operation)).settle world patience)

/-! ## An operation that is alone -/

section

variable {service : Service} {s t : Session} {operation : Operation} {update : Update}

/-- **An operation that is alone** makes its update and returns its receipt, if the update does
not fail and no commit finds its request committed. -/
theorem Operation.evaluate_plan (service : Service) (id : Nat)
    (makes : operation.update? s = some update)
    (once : ∀ of settled, operation = .commit of settled → ¬ s.Committed of)
    (applied : update.apply s = .ok t) :
    ∃ t' reply, operation.receipt? = some reply ∧
      (operation.plan service id).evaluate world.answer s = (t', .returned reply) ∧ Agrees t t' ∧
      ∀ other, (∀ settled, operation ≠ .commit other settled) →
        t'.request? other = s.request? other := by
  cases operation with
  | setMarkets markets =>
    cases makes
    cases applied
    exact ⟨_, _, rfl, rfl, Agrees.refl _, fun _ _ => rfl⟩
  | setSigner signer =>
    cases makes
    cases applied
    exact ⟨_, _, rfl, rfl, Agrees.refl _, fun _ _ => rfl⟩
  | replacePools nonces =>
    cases makes
    obtain ⟨pools, installed, rfl⟩ := map_eq_ok.1 applied
    refine ⟨_, .done, rfl, ?_, Agrees.refl _, fun _ _ => rfl⟩
    rw [Operation.plan, installed]
    rfl
  | advance consumed =>
    cases makes
    have applied : s.advance consumed = .ok t := applied
    refine ⟨t, .done, rfl, ?_, Agrees.refl _, fun other _ =>
      request?_advance applied other⟩
    rw [Operation.plan, Plan.evaluate, applied]
    rfl
  | commit of settled =>
    obtain ⟨request, found, rfl⟩ := Option.map_eq_some_iff.1 makes
    have applied : s.advance (request.consumed settled) = .ok t := applied
    have fresh : request.committed = false := by
      by_contra committed
      exact once of settled rfl ⟨request, found, by simpa using committed⟩
    refine ⟨markCommitted of t, .committed true, rfl, ?_, agrees_revise t of _,
      fun other another => ?_⟩
    · rw [Operation.plan, evaluate_commitPlan_of_found world.answer s of settled found fresh,
        applied]
      rfl
    · have hne : other ≠ of := by
        rintro rfl
        exact another settled rfl
      rw [markCommitted, request?_revise, if_neg hne, request?_advance applied]
  | _ => cases makes

/-- **One more operation** may be performed when all before it have ended. -/
theorem Consecutive.exists_next {operations : List Operation} {run : Run}
    (before : Consecutive service s operations run) (idle : Machine.Idle run)
    (makes : operation.update? run.data = some update)
    (once : ∀ of settled, operation = .commit of settled → ¬ run.data.Committed of)
    (applied : update.apply run.data = .ok t) :
    ∃ last, Consecutive service s (operations ++ [operation]) last ∧ Machine.Idle last ∧
      Agrees t last.data ∧ ∀ other, (∀ settled, operation ≠ .commit other settled) →
        last.data.request? other = run.data.request? other := by
  obtain ⟨u, reply, receipt, evaluates, agrees, others⟩ :=
    Operation.evaluate_plan service run.threads.length makes once applied
  obtain ⟨moves, last, idle', -, hdata, houtcome, settled⟩ :=
    Machine.rests_start world (operation.plan service run.threads.length) idle
      (operation.unhindered_plan service _ (by rintro rfl; cases makes))
  rw [evaluates] at hdata houtcome
  have issued : (run.issue service (.operate operation)).settle world (moves + 0) = last :=
    settled 0
  have next := before.next idle (moves + 0) receipt (by rw [issued]; exact houtcome)
  rw [issued] at next
  refine ⟨last, next, idle', ?_, ?_⟩
  · rw [hdata]
    exact agrees
  · rw [hdata]
    exact others

end

namespace Schedule

variable {h : Schedule} {writes : Nat → List Nat} {i k task : Nat}

/-! ## The run without abandoned work -/

/-- The session at its start, given the requests that have been signed before an event. -/
def premise (h : Schedule) (k : Nat) : Session :=
  { h.start with
    requests := (h.data k).requests.map fun entry =>
      (entry.1, { entry.2 with committed := false }) }

theorem request?_premise (h : Schedule) (k id : Nat) :
    (h.premise k).request? id =
      ((h.data k).request? id).map fun request => { request with committed := false } := by
  unfold premise request?
  induction (h.data k).requests with
  | nil => rfl
  | cons entry entries ih =>
    obtain ⟨name, request⟩ := entry
    rw [List.map_cons, List.lookup_cons, List.lookup_cons]
    by_cases hit : id == name
    · simp [hit]
    · simpa [hit] using ih

/-- **The operations that have made their updates come to the same without all others.** -/
theorem exists_consecutive (traced : h.Traced writes) (hik : i ≤ k) :
    ∃ operations run, List.Forall₂ h.Performs (log writes i) operations ∧
      Consecutive h.service (h.premise k) operations run ∧ Machine.Idle run ∧
      Agrees run.data (h.data i) ∧
      ∀ id, ¬ h.Advanced writes i id → run.data.request? id = (h.premise k).request? id := by
  induction i with
  | zero =>
    refine ⟨[], _, .nil, .initial, ⟨⟨rfl, rfl, rfl, rfl, rfl, rfl, rfl⟩, fun id t found => ?_⟩,
      ⟨rfl, rfl, rfl⟩, fun _ _ => rfl⟩
    cases found
  | succ i ih =>
    obtain ⟨operations, run, performed, consecutive, idle, agrees, requests⟩ := ih (by omega)
    rw [log_succ]
    rcases made_cases traced hik with
      ⟨nothing, same⟩ | ⟨task, operation, update, t, wrote, performs, makes, applied, agrees'⟩
    · rw [nothing, List.append_nil]
      refine ⟨operations, run, performed, consecutive, idle, agrees.trans same,
        fun id unadvanced => requests id fun before => unadvanced (advanced_succ.2 (.inl before))⟩
    · have mem : task ∈ writes i := by
        rw [wrote]
        exact List.mem_singleton.2 rfl
      -- a commit finds its request as it was signed, since nobody has committed it before
      have unspent {id : Nat} {settled : Option (List Combination)}
          (is : operation = .commit id settled) :
          run.data.request? id = (h.premise k).request? id := by
        subst is
        refine requests id fun ⟨j, hj, other, advances⟩ => ?_
        have same := (advances.unique traced ⟨mem, settled, performs⟩).1
        omega
      have makes' : operation.update? run.data = some update := by
        cases operation with
        | commit id settled =>
          obtain ⟨request, found, rfl⟩ := Option.map_eq_some_iff.1 makes
          rw [Operation.update?, unspent rfl, request?_premise, found]
          rfl
        | _ => exact makes
      have once (id : Nat) (settled : Option (List Combination))
          (is : operation = .commit id settled) : ¬ run.data.Committed id := by
        rintro ⟨request, found, committed⟩
        rw [unspent is, request?_premise, Option.map_eq_some_iff] at found
        obtain ⟨_, -, rfl⟩ := found
        cases committed
      obtain ⟨u, applied', alike⟩ := update.apply_of_agrees agrees.symm applied
      obtain ⟨last, next, idle', alike', others⟩ :=
        consecutive.exists_next idle makes' once applied'
      refine ⟨operations ++ [operation], last, ?_, next, idle',
        (alike.trans alike').symm.trans agrees', fun id unadvanced => ?_⟩
      · rw [wrote]
        exact List.rel_append performed (.cons performs .nil)
      · refine (others id fun settled is => unadvanced ?_).trans
          (requests id fun before => unadvanced (advanced_succ.2 (.inl before)))
        exact advanced_succ.2 (.inr ⟨task, mem, settled, is ▸ performs⟩)

/-! ## When all tasks have ended -/

theorem steady (h : Schedule) (k : Nat) : (h.state k).Steady ∧ (h.state k).Manned := by
  induction k with
  | zero => exact ⟨Machine.steady_after h.start [] (by rintro _ ⟨⟩), Machine.manned_initial h.start⟩
  | succ k ih =>
    obtain ⟨wrote, goes⟩ := h.exists_step k
    refine ⟨ih.1.step goes fun plan start => ?_, goes.manned ih.2⟩
    exact (h.within_of_start k plan start).mono fun _ _ _ => trivial

/-- **When all tasks have ended, the lock is free.** -/
theorem unlocked (ended : ∀ task < (h.state k).threads.length,
    ∃ outcome, (h.state k).outcome? task = some outcome) : (h.state k).Unlocked := by
  refine (h.steady k).1.unlocked (h.steady k).2 fun task t found => ?_
  have present := (List.getElem?_eq_some_iff.1 found).1
  rw [Machine.length_scene] at present
  obtain ⟨outcome, houtcome⟩ := ended task present
  obtain ⟨u, found', point⟩ := outcome?_eq_some.1 houtcome
  cases found.symm.trans found'
  exact ⟨outcome, point⟩

/-! ## No trace -/

/-- Only tasks of the log change the markets, the signer or the pools. -/
theorem agrees_of_unlogged (traced : h.Traced writes) (later : i < k)
    (unlogged : ∀ task ∈ log writes k, (h.move i).task? ≠ some task) :
    Agrees (h.data i) (h.data (i + 1)) := by
  rcases event_cases traced i with ⟨-, agrees⟩ | ⟨task, operation, wrote, -⟩
  · exact agrees
  · have mem : task ∈ writes i := by
      rw [wrote]
      exact List.mem_singleton.2 rfl
    exact absurd ((traced i).wrote_subset task mem)
      (unlogged task (mem_log_iff_wrote.2 ⟨i, later, mem⟩))

/-- Schedules that make the same updates in the same order come to the same. -/
theorem agrees_of_updates {h' : Schedule} {writes' : Nat → List Nat} {k' : Nat}
    {updates : List Update} (traced : h.Traced writes) (traced' : h'.Traced writes')
    (start : h'.start = h.start) (makes : List.Forall₂ (h.Makes k) (log writes k) updates)
    (makes' : List.Forall₂ (h'.Makes k') (log writes' k') updates) :
    Agrees (h.data k) (h'.data k') := by
  obtain ⟨_, s, given, applied, agrees⟩ := applyAll_updates traced (Nat.le_refl k)
  obtain ⟨_, s', given', applied', agrees'⟩ := applyAll_updates traced' (Nat.le_refl k')
  cases List.right_unique_forall₂' makes_rightUnique makes given
  cases List.right_unique_forall₂' makes_rightUnique makes' given'
  rw [start, applied] at applied'
  cases applied'
  exact agrees.symm.trans agrees'

/-- What is left of the tasks of a schedule at an event. -/
structure Traceless (h : Schedule) (writes : Nat → List Nat) (k : Nat) : Prop where
  /-- The log has the tasks that have returned the receipt of an update. -/
  mem_log : ∀ task, task ∈ log writes k ↔ ∃ operation reply, h.Performs task operation ∧
    operation.receipt? = some reply ∧ (h.state k).outcome? task = some (.returned reply)
  nodup : (log writes k).Nodup
  /-- Their updates, one after another, lead from the start to the markets, the signer and the
  pools. -/
  sequential : ∃ updates t, List.Forall₂ (h.Makes k) (log writes k) updates ∧
    Update.applyAll updates h.start = .ok t ∧ Agrees t (h.data k)
  /-- So does any other schedule that makes these updates in this order. -/
  determined : ∀ (h' : Schedule) writes' k' updates, h'.Traced writes' → h'.start = h.start →
    List.Forall₂ (h.Makes k) (log writes k) updates →
      List.Forall₂ (h'.Makes k') (log writes' k') updates → Agrees (h.data k) (h'.data k')
  /-- Nothing else that happens changes these. -/
  untouched : ∀ i < k, (∀ task ∈ log writes k, (h.move i).task? ≠ some task) →
    Agrees (h.data i) (h.data (i + 1))
  /-- The same comes of a run in which only the operations of the log are performed. -/
  deletable : ∃ operations run, List.Forall₂ h.Performs (log writes k) operations ∧
    Consecutive h.service (h.premise k) operations run ∧ Machine.Idle run ∧
    Agrees run.data (h.data k)
  /-- The lock is free when all tasks have ended. -/
  unlocked : (∀ task < (h.state k).threads.length,
    ∃ outcome, (h.state k).outcome? task = some outcome) → (h.state k).Unlocked

/-- **Abandoned work leaves no trace**, whatever the schedule: builds, commits, updates and any
other operations are interleaved, and each of them may fail or be cancelled at any time. -/
theorem traceless (h : Schedule) :
    (∃ writes, h.Traced writes) ∧ ∀ writes, h.Traced writes → ∀ k, h.Traceless writes k := by
  refine ⟨h.exists_traced, fun writes traced k => ?_⟩
  constructor
  case mem_log => exact fun task => Schedule.mem_log traced
  case nodup => exact nodup_log traced k
  case sequential => exact applyAll_updates traced (Nat.le_refl k)
  case determined =>
    exact fun h' writes' k' updates traced' start makes makes' =>
      agrees_of_updates traced traced' start makes makes'
  case untouched => exact fun i later unlogged => agrees_of_unlogged traced later unlogged
  case deletable =>
    obtain ⟨operations, run, performed, consecutive, idle, agrees, -⟩ :=
      exists_consecutive traced (Nat.le_refl k)
    exact ⟨operations, run, performed, consecutive, idle, agrees⟩
  case unlocked => exact fun ended => Schedule.unlocked ended

end Schedule

end SignedOrders.Session
