import SignedOrders.Proofs.Session.CommitStage

/-!
# A request is committed once

A commit that has found its request not to be committed is in the turnstile until it ends.
So no other commit looks or consumes meanwhile, and no other operation marks a request
(`Schedule.Staged`).

Hence whatever the schedule, at most one commit of a request consumes its nonces and returns
`true`, and the request is marked exactly when they have been consumed (`commitsOnce`).
-/

namespace SignedOrders.Session

open Tasks Relation

namespace Schedule

variable {h : Schedule} {writes : Nat → List Nat} {i j k task other id : Nat}
  {settled : Option (List Combination)} {outcome : Outcome Failure Reply}

/-- A task commits the signed request of another. -/
def Commits (h : Schedule) (task id : Nat) : Prop := ∃ settled, h.Performs task (.commit id settled)

/-- At some event, the pools are advanced for a request by a task that commits it. -/
def Advances (h : Schedule) (writes : Nat → List Nat) (k task id : Nat) : Prop :=
  task ∈ writes k ∧ h.Commits task id

/-- Before an event, a task has changed the session under the exclusive lock. -/
def Wrote (writes : Nat → List Nat) (k task : Nat) : Prop := ∃ i < k, task ∈ writes i

/-- Before an event, the pools have been advanced for a request. -/
def Advanced (h : Schedule) (writes : Nat → List Nat) (k id : Nat) : Prop :=
  ∃ i < k, ∃ task, h.Advances writes i task id

theorem wrote_succ : Wrote writes (k + 1) task ↔ Wrote writes k task ∨ task ∈ writes k :=
  Nat.exists_lt_succ_right

theorem advanced_succ : h.Advanced writes (k + 1) id ↔
    h.Advanced writes k id ∨ ∃ task, h.Advances writes k task id :=
  Nat.exists_lt_succ_right

/-- How far all commits have come, and which requests count as committed. -/
structure Staged (h : Schedule) (writes : Nat → List Nat) (k : Nat) : Prop where
  stages : ∀ task id settled t, (h.state k).scene[task]? = some t →
    h.Performs task (.commit id settled) → CommitStage id settled (h.data k) (Wrote writes k task) t
  committed_iff : ∀ id, (h.data k).Committed id ↔ h.Advanced writes k id

/-- An event in which no commit consumes anything. -/
structure Quiet (h : Schedule) (writes : Nat → List Nat) (k : Nat) : Prop where
  carries : Carries (h.data k) (h.data (k + 1))
  none_advances : ∀ task id, ¬ h.Advances writes k task id
  goes_on : ∀ task id settled t, (h.move k).task? = some task → (h.state k).scene[task]? = some t →
    h.Performs task (.commit id settled) → h.data (k + 1) = h.data k ∧
      ∃ u, (h.state (k + 1)).scene[task]? = some u ∧
        CommitStage id settled (h.data k) (Wrote writes k task) u

/-- An event in which a commit consumes the nonces of its request, and no other task is in the
turnstile. -/
structure Consuming (h : Schedule) (writes : Nat → List Nat) (k task id : Nat)
    (settled : Option (List Combination)) : Prop where
  moves : (h.move k).task? = some task
  performs : h.Performs task (.commit id settled)
  wrote : writes k = [task]
  consumes : Consumes id settled (h.data k) (h.data (k + 1))
  ends : Ends (h.state (k + 1)) task (.returned (.committed true))
  alone : ∀ other, other ≠ task → ¬ (h.state k).Serial other

/-- The commit that consumes is the only one that advances the pools. -/
theorem Consuming.advances_iff (consuming : h.Consuming writes k task id settled) {other of : Nat} :
    h.Advances writes k other of ↔ other = task ∧ of = id := by
  constructor
  · rintro ⟨wrote, given, performs⟩
    rw [consuming.wrote] at wrote
    cases List.mem_singleton.1 wrote
    cases performs.unique consuming.performs
    exact ⟨rfl, rfl⟩
  · rintro ⟨rfl, rfl⟩
    refine ⟨?_, settled, consuming.performs⟩
    rw [consuming.wrote]
    exact List.mem_singleton.2 rfl

/-- A task that changes the session is there. -/
theorem Traced.lt_of_mem (traced : h.Traced writes) (wrote : task ∈ writes k) :
    task < (h.state k).threads.length := by
  have moves := (traced k).wrote_subset task wrote
  by_contra absent
  rw [((traced k).idle moves (by omega)).2] at wrote
  cases wrote

/-- A task that has not been started has not changed the session. -/
theorem Traced.not_wrote (traced : h.Traced writes)
    (unstarted : (h.state k).threads.length ≤ task) : ¬ Wrote writes (k + 1) task := by
  rintro ⟨i, hi, wrote⟩
  have present := traced.lt_of_mem wrote
  have mono := h.length_mono (Nat.le_of_lt_succ hi)
  omega

/-- In an event nothing runs, or a task that is there performs its operation. -/
theorem Traced.move_cases (traced : h.Traced writes) (k : Nat) :
    (writes k = [] ∧ h.data (k + 1) = h.data k ∧
        ∀ task, (h.move k).task? = some task → (h.state k).scene[task]? = none) ∨
      ∃ task operation t, (h.move k).task? = some task ∧ (h.state k).scene[task]? = some t ∧
        h.Performs task operation := by
  have goes := traced k
  cases moves : (h.move k).task? with
  | none =>
    refine .inl ⟨List.eq_nil_iff_forall_not_mem.2 fun task wrote => ?_, goes.data_eq moves, ?_⟩
    · cases moves.symm.trans (goes.wrote_subset task wrote)
    · rintro task ⟨⟩
  | some mover =>
    cases found : (h.state k).scene[mover]? with
    | none =>
      obtain ⟨-, same, nothing⟩ := goes.absent moves found
      refine .inl ⟨nothing, same, ?_⟩
      rintro task ⟨⟩
      exact found
    | some t =>
      obtain ⟨operation, performs⟩ := exists_performs found
      exact .inr ⟨mover, operation, t, rfl, found, performs⟩

/-- Nothing changes the session where nothing runs, or what runs is not there. -/
theorem quiet_of_idle (same : h.data (k + 1) = h.data k) (nothing : writes k = [])
    (absent : ∀ task, (h.move k).task? = some task → (h.state k).scene[task]? = none) :
    h.Quiet writes k := by
  constructor
  case carries => exact .of_eq (by rw [same])
  case none_advances =>
    rintro task id ⟨wrote, -⟩
    rw [nothing] at wrote
    cases wrote
  case goes_on =>
    intro task id settled t moves found
    cases found.symm.trans (absent task moves)

/-- Other operations than commits sign requests, but commit none. -/
theorem quiet_of_performs {operation : Operation} (traced : h.Traced writes)
    (moves : (h.move k).task? = some task) (performs : h.Performs task operation)
    (other : ∀ id settled, operation ≠ .commit id settled) : h.Quiet writes k := by
  constructor
  case carries =>
    rcases h.data_succ k with same | ⟨id, given, moves', performs', changed⟩
    · exact .of_eq (by rw [same])
    · cases moves.symm.trans moves'
      cases performs.unique performs'
      exact carries_of_changes changed other
  case none_advances =>
    rintro writer id ⟨wrote, settled, performs'⟩
    cases moves.symm.trans ((traced k).wrote_subset writer wrote)
    exact other id settled (performs.unique performs')
  case goes_on =>
    intro task' id settled t moves' _ performs'
    cases moves.symm.trans moves'
    exact (other id settled (performs.unique performs')).elim

/-- **At each event** the commits go on and no request is newly committed, or one commit
consumes the nonces of its request. -/
theorem Staged.event (staged : h.Staged writes k) (traced : h.Traced writes) :
    h.Quiet writes k ∨ ∃ task id settled, h.Consuming writes k task id settled := by
  rcases traced.move_cases k with
    ⟨nothing, same, absent⟩ | ⟨mover, operation, t, moves, found, performs⟩
  · exact .inl (quiet_of_idle same nothing absent)
  · by_cases commits : ∃ id settled, operation = .commit id settled
    · obtain ⟨id, settled, rfl⟩ := commits
      have stage := staged.stages mover id settled t found performs
      rcases step_commit (traced k) moves found stage (h.orderly k) with
        ⟨nothing, same, stays⟩ | ⟨-, wrote, consumes, ends, alone⟩
      · left
        constructor
        case carries => exact .of_eq (congrArg Session.requests same)
        case none_advances =>
          rintro task id ⟨wrote, -⟩
          rw [nothing] at wrote
          cases wrote
        case goes_on =>
          intro task id' settled' u moves' _ performs'
          cases moves.symm.trans moves'
          cases performs.unique performs'
          exact ⟨same, stays⟩
      · exact .inr ⟨mover, id, settled, moves, performs, wrote, consumes, ends, alone⟩
    · exact .inl (quiet_of_performs traced moves performs fun id settled is =>
        commits ⟨id, settled, is⟩)

theorem staged_zero (h : Schedule) (writes : Nat → List Nat) : h.Staged writes 0 := by
  refine ⟨by rintro task id settled t ⟨⟩, fun id => ?_⟩
  constructor
  · rintro ⟨request, found, -⟩
    cases (h.request?_start id).symm.trans found
  · rintro ⟨i, ⟨⟩, -⟩

/-- A task that is started is a commit that has not begun. -/
theorem stage_of_start {t : Thread signing Session Failure Reply} {s : Session}
    (traced : h.Traced writes) (length : task = (h.state k).threads.length)
    (start : h.move k = .start t.plan) (fresh : t = ⟨t.plan, .fresh, .pending, none, false⟩)
    (performs : h.Performs task (.commit id settled)) :
    CommitStage id settled s (Wrote writes (k + 1) task) t := by
  obtain ⟨operation, -, plan, performs'⟩ := performs_of_start start
  rw [← length] at plan performs'
  cases performs.unique performs'
  exact .waiting (.inl (by rw [fresh])) plan (traced.not_wrote (Nat.le_of_eq length.symm))

/-- After an event in which no commit consumes anything. -/
theorem Staged.of_quiet (staged : h.Staged writes k) (traced : h.Traced writes)
    (quiet : h.Quiet writes k) : h.Staged writes (k + 1) := by
  constructor
  case stages =>
    intro task id settled u found performs
    have unmoved : task ∉ writes k := fun wrote =>
      quiet.none_advances task id ⟨wrote, settled, performs⟩
    have wrote_iff : Wrote writes (k + 1) task ↔ Wrote writes k task :=
      wrote_succ.trans (or_iff_left unmoved)
    rcases (traced k).before_cases found with
      ⟨moves, t, before⟩ | ⟨-, same⟩ | ⟨length, start, fresh⟩
    · obtain ⟨same, v, found', stage⟩ := quiet.goes_on task id settled t moves before performs
      rw [wrote_iff, same, Option.some.inj (found.symm.trans found')]
      exact stage
    · rw [wrote_iff]
      cases staged.stages task id settled u same performs with
      | waiting point plan yet => exact .waiting point plan yet
      | consuming point plan inside stored once yet =>
        exact .consuming point plan inside ((quiet.carries id).1 _ stored) once yet
      | ended point told answers => exact .ended point told answers
    · exact stage_of_start traced length start fresh performs
  case committed_iff =>
    intro id
    have none_now : ¬ ∃ task, h.Advances writes k task id := fun ⟨task, advances⟩ =>
      quiet.none_advances task id advances
    rw [advanced_succ, or_iff_left none_now, ← staged.committed_iff]
    constructor
    · exact (quiet.carries id).2
    · rintro ⟨request, found, committed⟩
      exact ⟨request, (quiet.carries id).1 request found, committed⟩

/-- After an event in which a commit consumes the nonces of its request. -/
theorem Staged.of_consuming {mover of : Nat} {given : Option (List Combination)}
    (staged : h.Staged writes k) (traced : h.Traced writes)
    (consuming : h.Consuming writes k mover of given) : h.Staged writes (k + 1) := by
  have wrote : mover ∈ writes k := (consuming.advances_iff.2 ⟨rfl, rfl⟩).1
  constructor
  case stages =>
    intro task id settled u found performs
    by_cases hid : task = mover
    · subst hid
      obtain ⟨v, found', point⟩ := consuming.ends
      rw [Option.some.inj (found.symm.trans found')]
      refine .ended point (iff_of_true rfl (wrote_succ.2 (.inr wrote))) ?_
      rintro reply ⟨⟩
      exact ⟨true, rfl⟩
    · have unmoved : task ∉ writes k := fun wrote =>
        hid (consuming.advances_iff.1 ⟨wrote, settled, performs⟩).1
      rw [wrote_succ, or_iff_left unmoved]
      rcases (traced k).found_cases found with moves | same | ⟨-, start, -⟩
      · exact (hid (Option.some.inj (moves.symm.trans consuming.moves))).elim
      · cases staged.stages task id settled u same performs with
        | waiting point plan yet => exact .waiting point plan yet
        | consuming point plan inside =>
          exact (consuming.alone task hid ⟨u, same, inside⟩).elim
        | ended point told answers => exact .ended point told answers
      · have moves := consuming.moves
        rw [start] at moves
        cases moves
  case committed_iff =>
    intro id
    obtain ⟨request, s, stored, -, advanced, changed⟩ := consuming.consumes
    have stored' : s.request? of = some request := (request?_advance advanced of).trans stored
    have before : s.Committed id ↔ (h.data k).Committed id := by
      unfold Committed
      rw [request?_advance advanced]
    have now : (∃ task, h.Advances writes k task id) ↔ id = of := by
      constructor
      · rintro ⟨task, advances⟩
        exact (consuming.advances_iff.1 advances).2
      · rintro rfl
        exact ⟨mover, consuming.advances_iff.2 ⟨rfl, rfl⟩⟩
    rw [changed, committed_markCommitted stored', before, staged.committed_iff, advanced_succ, now,
      or_comm]

theorem staged (traced : h.Traced writes) (k : Nat) : h.Staged writes k := by
  induction k with
  | zero => exact h.staged_zero writes
  | succ k ih =>
    rcases ih.event traced with quiet | ⟨task, id, settled, consuming⟩
    · exact ih.of_quiet traced quiet
    · exact ih.of_consuming traced consuming

/-- Where a commit advances the pools, it consumes the nonces of its request. -/
theorem Advances.consuming (advances : h.Advances writes k task id) (traced : h.Traced writes) :
    ∃ settled, h.Consuming writes k task id settled := by
  rcases (staged traced k).event traced with quiet | ⟨mover, of, settled, consuming⟩
  · exact absurd advances (quiet.none_advances task id)
  · obtain ⟨rfl, rfl⟩ := consuming.advances_iff.1 advances
    exact ⟨settled, consuming⟩

/-- Where it does not, it changes nothing. -/
theorem idle_of_not_advances (traced : h.Traced writes) (commits : h.Commits task id)
    (moves : (h.move k).task? = some task) (idle : ¬ h.Advances writes k task id) :
    h.data (k + 1) = h.data k := by
  obtain ⟨settled, performs⟩ := commits
  rcases (staged traced k).event traced with quiet | ⟨mover, of, given, consuming⟩
  · cases found : (h.state k).scene[task]? with
    | none => exact ((traced k).absent moves found).2.1
    | some t => exact (quiet.goes_on task id settled t moves found performs).1
  · cases moves.symm.trans consuming.moves
    cases performs.unique consuming.performs
    exact absurd (consuming.advances_iff.2 ⟨rfl, rfl⟩) idle

/-- After the pools have been advanced for a request, they are not advanced for it again. -/
theorem Advances.last (traced : h.Traced writes) (first : h.Advances writes i task id)
    (second : h.Advances writes j other id) : j ≤ i := by
  by_contra later
  obtain ⟨settled, consuming⟩ := second.consuming traced
  obtain ⟨request, s, stored, fresh, -⟩ := consuming.consumes
  -- the second finds the request not to be committed, though the first has marked it
  obtain ⟨request', stored', committed⟩ :=
    ((staged traced j).committed_iff id).2 ⟨i, by omega, task, first⟩
  cases stored.symm.trans stored'
  cases fresh.symm.trans committed

/-- The pools are advanced for a request at most once, by one task. -/
theorem Advances.unique (traced : h.Traced writes) (first : h.Advances writes i task id)
    (second : h.Advances writes j other id) : i = j ∧ task = other := by
  have same : i = j := Nat.le_antisymm (second.last traced first) (first.last traced second)
  subst same
  obtain ⟨settled, consuming⟩ := second.consuming traced
  exact ⟨rfl, (consuming.advances_iff.1 first).1⟩

/-- A commit that has ended has returned `true` if and only if it has advanced the pools. -/
theorem returned_iff (traced : h.Traced writes) (commits : h.Commits task id)
    (ended : (h.state k).outcome? task = some outcome) :
    (outcome = .returned (.committed true) ↔ Wrote writes k task) ∧
      ∀ reply, outcome = .returned reply → ∃ now, reply = .committed now := by
  obtain ⟨settled, performs⟩ := commits
  obtain ⟨t, found, point⟩ := outcome?_eq_some.1 ended
  cases (staged traced k).stages task id settled t found performs with
  | waiting point' => rcases point' with point' | point' <;> cases point.symm.trans point'
  | consuming point' => cases point.symm.trans point'
  | ended point' told answers =>
    cases point.symm.trans point'
    exact ⟨told, answers⟩

theorem advances_of_returned (traced : h.Traced writes) (commits : h.Commits task id)
    (ended : (h.state k).outcome? task = some (.returned (.committed true))) :
    ∃ i < k, h.Advances writes i task id := by
  obtain ⟨i, hi, wrote⟩ := (returned_iff traced commits ended).1.1 rfl
  exact ⟨i, hi, wrote, commits⟩

/-- At most one commit of a request returns `true`. -/
theorem true_once (traced : h.Traced writes) (commits : h.Commits task id)
    (commits' : h.Commits other id)
    (ended : (h.state j).outcome? task = some (.returned (.committed true)))
    (ended' : (h.state k).outcome? other = some (.returned (.committed true))) : task = other := by
  obtain ⟨i, -, first⟩ := advances_of_returned traced commits ended
  obtain ⟨i', -, second⟩ := advances_of_returned traced commits' ended'
  exact (first.unique traced second).2

/-- The commits of one request, where `writes` has the tasks that have changed the session under
the exclusive lock at each event. -/
structure CommitsOnce (h : Schedule) (writes : Nat → List Nat) (id : Nat) : Prop where
  /-- The request counts as committed if and only if the pools have been advanced for it. -/
  committed_iff : ∀ k, (h.data k).Committed id ↔ ∃ i < k, ∃ task, h.Advances writes i task id
  /-- They are advanced for it at most once. -/
  once : ∀ i j task other, h.Advances writes i task id → h.Advances writes j other id →
    i = j ∧ task = other
  /-- This and the mark are one change, of a request that was not committed, with which the
  commit ends; no other task changes the session under the exclusive lock meanwhile. -/
  consumes : ∀ i task, h.Advances writes i task id → writes i = [task] ∧
    ∃ settled, h.Performs task (.commit id settled) ∧
      Consumes id settled (h.data i) (h.data (i + 1)) ∧
        (h.state (i + 1)).outcome? task = some (.returned (.committed true))
  /-- A commit returns `true` only if it has advanced the pools. -/
  returned_true : ∀ k task, h.Commits task id →
    (h.state k).outcome? task = some (.returned (.committed true)) →
      ∃ i < k, h.Advances writes i task id
  /-- At most one commit returns `true`. -/
  true_once : ∀ j k task other, h.Commits task id → h.Commits other id →
    (h.state j).outcome? task = some (.returned (.committed true)) →
      (h.state k).outcome? other = some (.returned (.committed true)) → task = other
  /-- When one has returned `true`, any other that returns gives `false`. -/
  returns_false : ∀ j k task other reply, h.Commits task id → h.Commits other id → task ≠ other →
    (h.state j).outcome? task = some (.returned (.committed true)) →
      (h.state k).outcome? other = some (.returned reply) → reply = .committed false
  /-- Where it does not advance the pools, a commit changes nothing. -/
  idle : ∀ k task, h.Commits task id → (h.move k).task? = some task →
    ¬ h.Advances writes k task id → h.data (k + 1) = h.data k
  /-- A commit that does not return `true` has changed nothing. -/
  changes_nothing : ∀ k task outcome, h.Commits task id → (h.state k).outcome? task = some outcome →
    outcome ≠ .returned (.committed true) →
      ∀ i < k, (h.move i).task? = some task → h.data (i + 1) = h.data i

/-- **A request is committed once**, whatever the schedule: among all tasks that commit it, with
commits of other requests, replacements of the pools, builds and any other operations, each
of them cancelled or not at any time. -/
theorem commitsOnce (h : Schedule) :
    (∃ writes, h.Traced writes) ∧ ∀ writes, h.Traced writes → ∀ id, h.CommitsOnce writes id := by
  refine ⟨h.exists_traced, fun writes traced id => ?_⟩
  constructor
  case committed_iff => exact fun k => (staged traced k).committed_iff id
  case once => exact fun i j task other first second => first.unique traced second
  case returned_true => exact fun k task commits ended => advances_of_returned traced commits ended
  case true_once =>
    exact fun j k task other commits commits' ended ended' =>
      true_once traced commits commits' ended ended'
  case idle => exact fun k task commits moves idle => idle_of_not_advances traced commits moves idle
  case consumes =>
    intro i task advances
    obtain ⟨settled, consuming⟩ := advances.consuming traced
    exact ⟨consuming.wrote, settled, consuming.performs, consuming.consumes,
      outcome?_eq_some.2 consuming.ends⟩
  case returns_false =>
    intro j k task other reply commits commits' hne ended ended'
    obtain ⟨now, rfl⟩ := (returned_iff traced commits' ended').2 reply rfl
    cases now with
    | false => rfl
    | true => exact absurd (true_once traced commits commits' ended ended') hne
  case changes_nothing =>
    intro k task outcome commits ended refused i hi moves
    refine idle_of_not_advances traced commits moves fun advances => refused ?_
    exact (returned_iff traced commits ended).1.2 ⟨i, hi, advances.1⟩

end Schedule

end SignedOrders.Session
