import SignedOrders.Proofs.Session.CommitEffect
import SignedOrders.Proofs.Session.Taken
import SignedOrders.Proofs.Session.Traceless
import SignedOrders.Proofs.Tasks.Prompt

/-!
# No lock is held while the signer works

Only builds call the signer, and a build that waits for it is outside the session lock and the
turnstile (`Schedule.confined`): it looks at the session under the lock, lets go, and calls the
signer then.  So neither lock counts the builds that are suspended in calls of the signer.

Other operations do not wait for such builds, whatever the signer does and however many there
are.  If all tasks have ended but these, an operation that is started, such as a commit or a
replacement of the pools, comes to its end as soon as its task runs (`OnlySigning.prompt`).
-/

namespace SignedOrders.Session

open Tasks

namespace Schedule

variable {h : Schedule} {j k task : Nat} {operation : Operation}

/-- A task performs a build. -/
def Builds (h : Schedule) (task : Nat) : Prop :=
  ∃ operation build, h.Performs task operation ∧ operation.build? h.service = some build

/-- All tasks have ended but those that are suspended in calls of the signer. -/
def OnlySigning (h : Schedule) (k : Nat) : Prop :=
  ∀ (task : Nat) t, (h.state k).threads[task]? = some t →
    t.point.suspended = true ∨ ∃ outcome, t.point = .ended outcome

/-- From one event on and before another, the task neither runs nor is cancelled, and nothing is
started that holds the lock until told. -/
def Leaves (h : Schedule) (task i j : Nat) : Prop :=
  ∀ l, i ≤ l → l < j → h.events l ≠ .turn task ∧ h.events l ≠ .cancel task ∧
    h.events l ≠ .operate .hold

/-- The task of an operation is ready, and if it runs in the event it ends with a reply or a
failure, as the operation evaluates. -/
structure Prompt (h : Schedule) (operation : Operation) (task j : Nat) : Prop where
  ready : task ∈ (h.state j).ready
  ends : h.events j = .turn task → ∃ outcome, outcome ≠ .cancelled ∧
    (h.state (j + 1)).outcome? task = some outcome ∧
      ∀ respond, (operation.plan h.service task).evaluate respond (h.data j) =
        (h.data (j + 1), outcome)

/-! ## Suspended builds -/

/-- **Whatever the schedule, only builds ask**, without the lock and outside the turnstile, and
they do not hold the lock until told. -/
theorem confined (h : Schedule) (k : Nat) :
    Machine.Confined h.Builds (fun task => h.Performs task .hold) (h.state k) := by
  induction k with
  | zero => exact Machine.confined_initial h.start
  | succ k ih =>
    obtain ⟨wrote, goes⟩ := h.exists_step k
    refine ih.step goes fun plan start => ?_
    obtain ⟨operation, -, rfl, performs⟩ := performs_of_start start
    refine (operation.confined_plan h.service _).mono ?_ ?_
    · exact fun ⟨build, built⟩ => ⟨operation, build, performs, built⟩
    · rintro rfl
      exact performs

/-- Suspended builds wait for no other task. -/
theorem OnlySigning.loose (only : h.OnlySigning k) : Machine.Loose (h.state k) := by
  intro task t found
  have confined := h.confined k task t found
  rw [Machine.getElem?_scene, Option.map_eq_some_iff] at found
  obtain ⟨t, found, rfl⟩ := found
  rcases only task t found with suspended | ended
  · obtain ⟨⟨operation, build, performs, built⟩, -⟩ := confined.outside suspended
    refine .inr ⟨confined.mono (fun _ => trivial) fun holds => ?_, .inr suspended⟩
    cases performs.unique holds
    cases built
  · exact .inl ended

/-! ## Operations that do not wait -/

theorem move_eq_turn : h.move k = .turn task ↔ h.events k = .turn task := by
  unfold move
  cases h.events k <;> simp [Event.move]

theorem move_eq_cancel : h.move k = .cancel task ↔ h.events k = .cancel task := by
  unfold move
  cases h.events k <;> simp [Event.move]

/-- If nobody waits for anybody, it stays so while nothing holds the lock until told. -/
theorem loose_succ (free : h.events k ≠ .operate .hold) (loose : Machine.Loose (h.state k)) :
    Machine.Loose (h.state (k + 1)) := by
  obtain ⟨wrote, goes⟩ := h.exists_step k
  refine goes.loose (h.steady k).1 (h.steady k).2 loose fun plan start => ?_
  obtain ⟨operation, starts, rfl, -⟩ := performs_of_start start
  refine (operation.confined_plan h.service _).mono (fun _ => trivial) ?_
  rintro rfl
  exact free starts

/-- Nobody waits for anybody, and a new task waits for its first turn, as long as it is left. -/
theorem due_of_leaves (starts : h.events k = .operate operation) (free : operation ≠ .hold)
    (loose : Machine.Loose (h.state k)) (hkj : k < j)
    (leaves : h.Leaves (h.state k).threads.length (k + 1) j) :
    Machine.Loose (h.state j) ∧ Machine.Due (h.state j) (h.state k).threads.length
      (operation.plan h.service (h.state k).threads.length) := by
  induction hkj with
  | refl =>
    refine ⟨loose_succ (by rw [starts]; rintro ⟨⟩; exact free rfl) loose, ?_⟩
    rw [state_succ, move, starts]
    exact Machine.due_start _ _
  | @step j hkj ih =>
    obtain ⟨loose, due⟩ := ih fun l hl hlj => leaves l hl (by omega)
    obtain ⟨unturned, uncancelled, free⟩ := leaves j hkj (by omega)
    obtain ⟨wrote, goes⟩ := h.exists_step j
    refine ⟨loose_succ free loose, goes.due (h.steady j).1 due ?_ ?_⟩
    · exact fun turn => unturned (move_eq_turn.1 turn)
    · exact fun cancel => uncancelled (move_eq_cancel.1 cancel)

/-- **An operation does not wait for the signer.** -/
theorem OnlySigning.prompt (only : h.OnlySigning k) (starts : h.events k = .operate operation)
    (unbuilt : operation.build? h.service = none) (free : operation ≠ .hold) (hkj : k < j)
    (leaves : h.Leaves (h.state k).threads.length (k + 1) j) :
    h.Prompt operation (h.state k).threads.length j := by
  obtain ⟨loose, due⟩ := due_of_leaves starts free only.loose hkj leaves
  obtain ⟨steady, manned⟩ := h.steady j
  refine ⟨due.ready steady, fun turn => ?_⟩
  have last : h.state (j + 1) = Machine.move (h.state j) (.turn (h.state k).threads.length) := by
    rw [state_succ, move_eq_turn.2 turn]
  obtain ⟨u, outcome, found, ended, evaluates⟩ :=
    due.turn steady manned loose (operation.silent_plan _ unbuilt free)
  rw [← last] at found evaluates
  refine ⟨outcome, ?_, outcome?_eq_some.2 ⟨u, found, ended⟩, evaluates⟩
  have reply := operation.evaluate_ne_cancelled (h.state k).threads.length unbuilt free
    world.answer (h.data j)
  rwa [show h.data j = (h.state j).data from rfl, evaluates world.answer] at reply

/-! ## No lock -/

/-- How the builds that are suspended in calls of the signer stand before an event. -/
structure Unheld (h : Schedule) (k : Nat) : Prop where
  /-- A task that is suspended in a call of the signer performs a build.  It has neither lock, and
  waits for none. -/
  apart : ∀ (task : Nat) t, (h.state k).threads[task]? = some t → t.point.suspended = true →
    h.Builds task ∧ t.point.held? = none ∧ t.point.sought? = none ∧ t.serial = false ∧
      task ∉ (h.state k).sleepers ∧ task ∉ (h.state k).turnstile.queue
  /-- The session lock counts only tasks that are not suspended, between events and whenever a
  task runs. -/
  counts : (h.state k).Exact ((h.state k).threads.filter fun t => !t.point.suspended) none ∧
    ∀ id (m : Run) held p, (h.state k).Reaches id m held p →
      m.Exact ((m.threads.eraseIdx id).filter fun t => !t.point.suspended) (Machine.running held p)
  /-- Nobody is in the gate of the session lock. -/
  gate : (h.state k).gate = ⟨false, []⟩
  /-- The task in the turnstile is not suspended. -/
  turnstile : (h.state k).turnstile.occupied = true →
    ∃ (task : Nat) (t : Thread signing Session Failure Reply),
      (h.state k).threads[task]? = some t ∧ t.serial = true ∧ t.point.suspended = false ∧
        ∀ outcome, t.point ≠ .ended outcome
  /-- An operation that is started when all tasks have ended but suspended builds does not wait
  for these, unless it is a build or holds the lock until told: a commit, for instance, or a
  replacement of the pools.  Its task is ready until it has its first turn, and ends there.
  Builds may go on and be cancelled meanwhile, and other operations may be started. -/
  prompt : ∀ operation, h.OnlySigning k → h.events k = .operate operation →
    operation.build? h.service = none → operation ≠ .hold →
      ∀ j, k < j → h.Leaves (h.state k).threads.length (k + 1) j →
        h.Prompt operation (h.state k).threads.length j

/-- **No lock is held while the signer works**, whatever the schedule: builds, commits, updates
and any other operations are interleaved, and each of them may fail or be cancelled at any time. -/
theorem unheld (h : Schedule) (k : Nat) : h.Unheld k := by
  obtain ⟨steady, manned⟩ := h.steady k
  constructor
  case apart =>
    intro task t found suspended
    have found' := Machine.getElem?_scene_of_found found
    obtain ⟨builds, outside, held⟩ := (h.confined k task _ found').outside suspended
    have sought := Machine.sought?_of_suspended suspended
    refine ⟨builds, held, sought, outside, fun sleeps => ?_, fun waits => ?_⟩
    · obtain ⟨-, u, mode, found'', asleep⟩ := steady.orderly.asleep task sleeps
      cases found'.symm.trans found''
      cases (congrArg Point.suspended asleep).symm.trans suspended
    · obtain ⟨-, u, found'', door⟩ := steady.orderly.queued task waits
      cases found'.symm.trans found''
      cases (congrArg Point.suspended door).symm.trans suspended
  case counts =>
    -- builds ask without the lock, so that no suspended task has it
    have apart := (h.confined k).held?_eq_none
    refine ⟨steady.guarded.tally.exact.of_still.unsuspended fun t ht => ?_,
      fun id m held p reaches => ?_⟩
    · exact apart t.still (List.mem_map_of_mem ht)
    · have exact := (steady.guarded.reaches reaches).2.exact
      have others : m.others id = (m.threads.eraseIdx id).map Thread.still :=
        List.eraseIdx_map ..
      rw [others] at exact
      refine exact.of_still.unsuspended fun t ht => apart t.still ?_
      have stays : t.still ∈ m.others id := others ▸ List.mem_map_of_mem ht
      rw [reaches.others_eq] at stays
      exact List.mem_of_mem_eraseIdx stays
  case gate => exact steady.guarded.settled.gate
  case turnstile =>
    intro occupied
    obtain ⟨task, t, found, passes⟩ := manned occupied
    rw [Machine.getElem?_scene, Option.map_eq_some_iff] at found
    obtain ⟨t, found, rfl⟩ := found
    refine ⟨task, t, found, passes.inside, ?_, passes.going⟩
    have confined := h.confined k task _ (Machine.getElem?_scene_of_found found)
    by_contra suspended
    have outside := confined.outside (eq_true_of_ne_false suspended)
    cases passes.inside.symm.trans outside.2.1
  case prompt =>
    exact fun operation only starts unbuilt free j hkj leaves =>
      only.prompt starts unbuilt free hkj leaves

end Schedule

/-- The pools are replaced while the sample order waits for the signer. -/
def Sample.replacing : Schedule :=
  { schedule with
    events := fun k =>
      if k < 2 then schedule.events k
      else if k = 2 then .operate (.replacePools [("neo", [5])])
      else .turn 1 }

/-- The new pools are there after one turn, and the order is still suspended. -/
example : (Sample.replacing.state 2).threads.map (·.point.suspended) = [true] ∧
    (Sample.replacing.state 4).threads.map (·.point.suspended) = [true, false] ∧
      (Sample.replacing.data 4).poolOf "neo" = [5] := by
  decide +kernel

end SignedOrders.Session
