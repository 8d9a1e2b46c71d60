import SignedOrders.Proofs.Session.Requests

/-!
# A commit from its start to its end

A commit looks whether its request has been committed, consumes its nonces under the
exclusive lock, and marks it as committed.  It may have to wait for the lock after it has
looked.  But it is in the turnstile then, and consuming and marking are not interrupted.

So a commit that runs has changed nothing, or it has consumed the nonces of a request that was
not committed and marked it, and has ended with `true` (`step_commit`).
-/

namespace SignedOrders.Session

open Tasks

/-- What a commit still has to do that has found its request not to be committed. -/
def consumption (id : Nat) (settled : Option (List Combination)) (request : SignedRequest) :
    Action Reply :=
  .exclusive (fun s => s.advance (request.consumed settled))
    (.mark (markCommitted id) (.done (.committed true)))

/-- The nonces of a request that was not committed are consumed, and it counts as committed. -/
def Consumes (id : Nat) (settled : Option (List Combination)) (s t : Session) : Prop :=
  ∃ request u, s.request? id = some request ∧ request.committed = false ∧
    s.advance (request.consumed settled) = .ok u ∧ t = markCommitted id u

/-- A task has ended. -/
def Ends (m : Run) (id : Nat) (outcome : Outcome Failure Reply) : Prop :=
  ∃ t, m.scene[id]? = some t ∧ t.point = .ended outcome

/-- How far a commit has come; `wrote` says whether it has consumed nonces. -/
inductive CommitStage (id : Nat) (settled : Option (List Combination)) (s : Session)
    (wrote : Prop) : Thread signing Session Failure Reply → Prop where
  | waiting {t} (point : t.point = .fresh ∨ t.point = .atTurnstile)
      (plan : t.plan = commitPlan id settled) (yet : ¬ wrote) : CommitStage id settled s wrote t
  | consuming {t request} (point : t.point = .asleep .exclusive)
      (plan : t.plan = consumption id settled request) (inside : t.serial = true)
      (found : s.request? id = some request) (once : request.committed = false) (yet : ¬ wrote) :
      CommitStage id settled s wrote t
  | ended {t outcome} (point : t.point = .ended outcome)
      (told : outcome = .returned (.committed true) ↔ wrote)
      (answers : ∀ reply, outcome = .returned reply → ∃ now, reply = .committed now) :
      CommitStage id settled s wrote t

section

variable {m last : Run} {task id : Nat} {settled : Option (List Combination)}
  {request : SignedRequest} {wrote : List Nat} {W : Prop}
  {t : Thread signing Session Failure Reply}

theorem scene_enter (m : Run) (task : Nat) (found : m.scene[task]? = some t) :
    (Machine.modify (m.occupyDoor .turnstile) task fun t =>
      { t with serial := true }).scene[task]? = some { t with serial := true } :=
  (Machine.scene_serial m task).trans (congrArg _ found)

theorem ends_retire (m : Run) (found : m.scene[task]? = some t) (outcome : Outcome Failure Reply) :
    Ends (m.retire task outcome) task outcome :=
  ⟨_, (Machine.getElem?_scene_retire m task outcome).trans (congrArg _ found), rfl⟩

/-- A commit that does not consume anything has ended without `true`. -/
theorem CommitStage.of_ends {outcome : Outcome Failure Reply} {s : Session} (yet : ¬ W)
    (ends : Ends last task outcome) (refused : outcome ≠ .returned (.committed true))
    (answers : ∀ reply, outcome = .returned reply → ∃ now, reply = .committed now) :
    ∃ u, last.scene[task]? = some u ∧ CommitStage id settled s W u := by
  obtain ⟨u, found, point⟩ := ends
  exact ⟨u, found, .ended point (iff_of_false refused yet) answers⟩

/-- A commit that has the lock consumes the nonces and marks the request, or it fails and
leaves the session as it is. -/
theorem stretch_consumption_held
    (h : Machine.Stretch task m true (consumption id settled request) wrote last)
    (found : m.scene[task]? = some t) :
    (∃ u, m.data.advance (request.consumed settled) = .ok u ∧ wrote = [task] ∧
        last.data = markCommitted id u ∧ Ends last task (.returned (.committed true))) ∨
      wrote = [] ∧ last.data = m.data ∧ ∃ e, Ends last task (.failed e) := by
  rcases h.of_exclusive with ⟨u, later, advanced, rfl, rest⟩ | ⟨e, -, rfl, rfl⟩
  · obtain ⟨rfl, rfl⟩ := rest.of_mark.of_finish
    refine .inl ⟨u, advanced, rfl, ?_, ends_retire (t := t) _ ?_ _⟩
    · rw [Machine.data_retire]
      show markCommitted id (Machine.release { m with data := u } .exclusive).data = _
      rw [Machine.data_release]
    · show (Machine.release { m with data := u } .exclusive).scene[task]? = _
      rw [Machine.scene_release]
      exact found
  · refine .inr ⟨rfl, ?_, e, ends_retire (t := t) _ ?_ _⟩
    · rw [Machine.data_retire, Machine.data_release]
    · rw [Machine.scene_release]
      exact found

/-- What becomes of a commit in the turnstile in one stretch. -/
theorem stretch_consumption
    (h : Machine.Stretch task m false (consumption id settled request) wrote last)
    (found : m.scene[task]? = some t) (inside : t.serial = true)
    (stored : m.data.request? id = some request) (once : request.committed = false) (yet : ¬ W) :
    (wrote = [] ∧ last.data = m.data ∧
        ∃ u, last.scene[task]? = some u ∧ CommitStage id settled m.data W u) ∨
      wrote = [task] ∧ Consumes id settled m.data last.data ∧
        Ends last task (.returned (.committed true)) := by
  rcases h.of_wants rfl with ⟨-, rest⟩ | ⟨-, rfl, rfl⟩
  · rcases stretch_consumption_held rest found with
      ⟨u, advanced, rfl, changed, ends⟩ | ⟨rfl, same, e, ends⟩
    · exact .inr ⟨rfl, ⟨request, u, stored, once, advanced, changed⟩, ends⟩
    · exact .inl ⟨rfl, same, CommitStage.of_ends yet ends (by rintro ⟨⟩) (by rintro _ ⟨⟩)⟩
  · refine .inl ⟨rfl, rfl,
      { t with plan := consumption id settled request, point := .asleep .exclusive }, ?_,
      .consuming rfl rfl inside stored once yet⟩
    exact (Machine.getElem?_scene_park _ task (.asleep .exclusive) _).trans (congrArg _ found)

/-- What becomes of a commit that passes the turnstile. -/
theorem stretch_commitPlan_held
    (h : Machine.Stretch task m true (commitPlan id settled) wrote last)
    (found : m.scene[task]? = some t) (yet : ¬ W) :
    (wrote = [] ∧ last.data = m.data ∧
        ∃ u, last.scene[task]? = some u ∧ CommitStage id settled m.data W u) ∨
      wrote = [task] ∧ Consumes id settled m.data last.data ∧
        Ends last task (.returned (.committed true)) := by
  have entered := scene_enter m task found
  have rest := h.of_serial_held.of_peek
  -- it looks at the session before it waits for anything
  have refused {m' : Run} {o : Outcome Failure Reply} (ends : last = m'.retire task o)
      (same : m'.data = m.data) (found : ∃ u, m'.scene[task]? = some u)
      (ho : o = .returned (.committed false)) (none_wrote : wrote = []) :
      wrote = [] ∧ last.data = m.data ∧
        ∃ u, last.scene[task]? = some u ∧ CommitStage id settled m.data W u := by
    obtain ⟨u, found⟩ := found
    subst ends ho
    refine ⟨none_wrote, (Machine.data_retire ..).trans same,
      CommitStage.of_ends yet (ends_retire _ found _) ?_ ?_⟩
    · rintro ⟨⟩
    · rintro _ ⟨⟩
      exact ⟨false, rfl⟩
  split at rest
  · obtain ⟨none_wrote, ends⟩ := rest.of_finish
    exact .inl (refused ends rfl ⟨_, entered⟩ rfl none_wrote)
  · rename_i request stored
    split at rest
    · obtain ⟨none_wrote, ends⟩ := rest.of_finish
      exact .inl (refused ends rfl ⟨_, entered⟩ rfl none_wrote)
    · rename_i once
      have rest : Machine.Stretch task (Machine.modify (m.occupyDoor .turnstile) task fun t =>
          { t with serial := true }) false (consumption id settled request) wrote last := rest
      have result := stretch_consumption rest entered rfl stored (by simpa using once) yet
      exact result

/-- A commit that is cancelled before it has consumed anything changes nothing. -/
theorem stretch_cancelled (h : Machine.Stretch task m false (.finish .cancelled) wrote last)
    (found : m.scene[task]? = some t) (yet : ¬ W) :
    wrote = [] ∧ last.data = m.data ∧
      ∃ u, last.scene[task]? = some u ∧ CommitStage id settled m.data W u := by
  obtain ⟨rfl, rfl⟩ := h.of_finish
  exact ⟨rfl, Machine.data_retire .., CommitStage.of_ends yet (ends_retire m found _) (by rintro ⟨⟩)
    (by rintro _ ⟨⟩)⟩

/-- If nobody is in the turnstile, no other task has passed it. -/
theorem alone_of_vacant (orderly : m.Orderly none) (free : m.turnstile.occupied = false)
    (other : Nat) : ¬ m.Serial other := by
  intro serial
  cases free.symm.trans (orderly.serial other (by rintro ⟨⟩) serial)

/-- A commit that waits for the turnstile, or has not begun, goes through it alone. -/
theorem wakes_waiting {m' : Run} {held : Bool} {p : Action Reply}
    (wakes : Machine.Wakes task m t m' held p)
    (rest : Machine.Stretch task m' held p wrote last) (found : m.threads[task]? = some t)
    (point : t.point = .fresh ∨ t.point = .atTurnstile) (plan : t.plan = commitPlan id settled)
    (yet : ¬ W) (orderly : m.Orderly none) :
    (wrote = [] ∧ last.data = m.data ∧
        ∃ u, last.scene[task]? = some u ∧ CommitStage id settled m.data W u) ∨
      wrote = [task] ∧ Consumes id settled m.data last.data ∧
        Ends last task (.returned (.committed true)) ∧ m.turnstile.occupied = false := by
  have found' := Machine.getElem?_scene_of_found found
  have found'' := found'
  rw [← wakes.scene_eq] at found''
  have same := wakes.data_eq
  have awake (mode : Mode) : t.point ≠ .asleep mode := by
    rcases point with point | point <;> simp [point]
  cases wakes with
  | fresh point =>
    rw [plan] at rest
    rcases rest.of_serial with ⟨free, rest⟩ | ⟨rfl, rfl⟩
    · have running := orderly.running_of_point (p := t.plan) found' awake
        (by simp [Thread.still, point])
      rcases stretch_commitPlan_held rest found' yet with nothing | ⟨rfl, consumes, ends⟩
      · exact .inl nothing
      · exact .inr ⟨rfl, consumes, ends, (running.orderly.vacant_of_isOpen free).1⟩
    · refine .inl ⟨rfl, rfl, _, (Machine.getElem?_scene_park _ task .atTurnstile _).trans
        (congrArg _ found'), .waiting (.inr rfl) rfl yet⟩
  | pass point called =>
    rw [plan] at rest
    have vacant := orderly.vacant ⟨t, found, point, .inl called⟩
    rcases stretch_commitPlan_held rest found'' yet with nothing | ⟨rfl, consumes, ends⟩
    · exact .inl nothing
    · exact .inr ⟨rfl, consumes, ends, vacant.1⟩
  | giveUp =>
    rw [← same]
    exact .inl (stretch_cancelled rest found'' yet)
  | drop => exact .inl (stretch_cancelled rest found'' yet)
  | unanswered =>
    rw [← same]
    exact .inl (stretch_cancelled rest found'' yet)
  | again asleep => exact absurd asleep (awake _)
  | withdraw asleep => exact absurd asleep (awake _)
  | leave inside => rcases point with point | point <;> cases point.symm.trans inside
  | answered answered => rcases point with point | point <;> cases point.symm.trans answered

/-- A commit that sleeps until the lock is free for it does what it has found to be done. -/
theorem wakes_consuming {m' : Run} {held : Bool} {p : Action Reply}
    (wakes : Machine.Wakes task m t m' held p)
    (rest : Machine.Stretch task m' held p wrote last) (found : m.scene[task]? = some t.still)
    (point : t.point = .asleep .exclusive) (plan : t.plan = consumption id settled request)
    (stored : m.data.request? id = some request) (once : request.committed = false) (yet : ¬ W) :
    (wrote = [] ∧ last.data = m.data ∧
        ∃ u, last.scene[task]? = some u ∧ CommitStage id settled m.data W u) ∨
      wrote = [task] ∧ Consumes id settled m.data last.data ∧
        Ends last task (.returned (.committed true)) := by
  have same := wakes.data_eq
  rw [← wakes.scene_eq] at found
  cases wakes with
  | again =>
    rw [plan] at rest
    rw [← same]
    rcases stretch_consumption_held rest found with
      ⟨u, advanced, rfl, changed, ends⟩ | ⟨rfl, unchanged, e, ends⟩
    · rw [← same] at stored
      exact .inr ⟨rfl, ⟨request, u, stored, once, advanced, changed⟩, ends⟩
    · exact .inl ⟨rfl, unchanged, CommitStage.of_ends yet ends (by rintro ⟨⟩) (by rintro _ ⟨⟩)⟩
  | withdraw =>
    rw [← same]
    exact .inl (stretch_cancelled rest found yet)
  | fresh other => cases point.symm.trans other
  | leave other => cases point.symm.trans other
  | answered other => cases point.symm.trans other
  | pass other => cases point.symm.trans other
  | giveUp other => cases point.symm.trans other
  | drop other => cases point.symm.trans other
  | unanswered other => rcases other with other | ⟨_, other⟩ <;> cases point.symm.trans other

/-- **A commit that runs** goes on with nothing changed, or it consumes the nonces, while no
other task is in the turnstile. -/
theorem turn_commit (goes : Machine.Turn task m t wrote last) (found : m.threads[task]? = some t)
    (stage : CommitStage id settled m.data W t.still) (orderly : m.Orderly none) :
    (wrote = [] ∧ last.data = m.data ∧
        ∃ u, last.scene[task]? = some u ∧ CommitStage id settled m.data W u) ∨
      ¬ W ∧ wrote = [task] ∧ Consumes id settled m.data last.data ∧
        Ends last task (.returned (.committed true)) ∧
          ∀ other, other ≠ task → ¬ m.Serial other := by
  have found' := Machine.getElem?_scene_of_found found
  cases goes with
  | goes wakes rest =>
    cases stage with
    | waiting point plan yet =>
      rcases wakes_waiting wakes rest found point plan yet orderly with
        nothing | ⟨wrote, consumes, ends, free⟩
      · exact .inl nothing
      · exact .inr ⟨yet, wrote, consumes, ends, fun other _ => alone_of_vacant orderly free other⟩
    | consuming point plan inside stored once yet =>
      rcases wakes_consuming wakes rest found' point plan stored once yet with
        nothing | ⟨wrote, consumes, ends⟩
      · exact .inl nothing
      · exact .inr ⟨yet, wrote, consumes, ends, (orderly.keeps task ⟨_, found', inside⟩).2⟩
    | ended point => exact absurd point (wakes.going _)
  | @asleep mode asleep =>
    left
    refine ⟨rfl, rfl, { t.still with plan := t.plan, point := .asleep mode },
      (Machine.getElem?_scene_park ..).trans (congrArg _ found'), ?_⟩
    have same : ({ t.still with plan := t.plan, point := .asleep mode } :
        Thread signing Session Failure Reply) = t.still := by
      rw [← asleep]
      rfl
    rw [same]
    exact stage
  | later answered =>
    cases stage with
    | waiting point => rcases point with point | point <;> cases point.symm.trans answered
    | consuming point => cases point.symm.trans answered
    | ended point => cases point.symm.trans answered
  | ended => exact .inl ⟨rfl, rfl, _, found', stage⟩

/-- What becomes of a commit in a move in which it may run. -/
theorem step_commit {move : Move signing Session Failure Reply}
    (goes : Machine.Step m move wrote last) (moves : move.task? = some task)
    (found : m.scene[task]? = some t) (stage : CommitStage id settled m.data W t)
    (orderly : m.Orderly none) :
    (wrote = [] ∧ last.data = m.data ∧
        ∃ u, last.scene[task]? = some u ∧ CommitStage id settled m.data W u) ∨
      ¬ W ∧ wrote = [task] ∧ Consumes id settled m.data last.data ∧
        Ends last task (.returned (.committed true)) ∧
          ∀ other, other ≠ task → ¬ m.Serial other := by
  have same {u : Thread signing Session Failure Reply} (found' : m.threads[task]? = some u) :
      u.still = t :=
    Option.some.inj ((Machine.getElem?_scene_of_found found').symm.trans found)
  -- a commit asks nothing
  have silent {u : Thread signing Session Failure Reply} (found' : m.threads[task]? = some u)
      {under : Option Mode} (asking : u.point = .asking under) : False := by
    have asking : t.point = .asking under := by
      rw [← same found']
      exact asking
    cases stage with
    | waiting point => rcases point with point | point <;> cases point.symm.trans asking
    | consuming point => cases point.symm.trans asking
    | ended point => cases point.symm.trans asking
  cases goes with
  | turn _ found' goes =>
    cases moves
    have orderly' : Machine.Orderly (m.pick task) none := orderly.frame rfl rfl rfl
    rw [← same found'] at stage
    have result := turn_commit goes found' stage orderly'
    exact result
  | nobody => cases moves; exact .inl ⟨rfl, rfl, t, found, stage⟩
  | unready => cases moves; exact .inl ⟨rfl, rfl, t, found, stage⟩
  | reply found' => cases moves; exact (silent found' rfl).elim
  | delay found' => cases moves; exact (silent found' rfl).elim
  | unasked => cases moves; exact .inl ⟨rfl, rfl, t, found, stage⟩
  | _ => cases moves

theorem outcome?_eq_some {outcome : Outcome Failure Reply} :
    m.outcome? task = some outcome ↔ Ends m task outcome := by
  unfold Machine.outcome? Machine.pointOf? Ends
  rw [Machine.getElem?_scene]
  cases m.threads[task]? with
  | none => simp
  | some t =>
    rw [Option.map_some, Option.map_some]
    cases point : t.point <;> simp [Thread.still, point]

end

end SignedOrders.Session
