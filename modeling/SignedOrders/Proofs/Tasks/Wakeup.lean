import SignedOrders.Proofs.Tasks.Alert

/-!
# No lost wake-up

A run comes to rest when no task is ready.  Then all tasks that sleep would be refused
(`Steady.refused`), so that somebody is inside whenever somebody waits, and a writer is inside
or waits whenever a reader waits.

A task that waits for the lock and is not cancelled waits on until it takes the lock in a turn
of its own (`Step.queued`).  So it has taken the lock when the run has come to rest with the
lock free for it (`Queued.exists_reaches`).  When the last writer that waits is cancelled, its
next turn leaves a lock that admits readers (`Steady.admits_cancelled`), so that all readers
that wait have been woken (`Queued.ready`) and go in (`Steady.all_inside`).
-/

namespace SignedOrders.Tasks

variable {I : Interface} {σ ε α : Type}

/-- Nobody is in the way of a task that wants the lock: no writer, and no task that the mode
does not go together with. -/
def Free (waiting : List (Thread I σ ε α)) : Mode → Prop
  | .shared => insiders waiting none .exclusive = 0 ∧ seekers waiting .exclusive = 0
  | .exclusive => insiders waiting none .exclusive = 0 ∧ insiders waiting none .shared = 0

namespace Machine

/-- The task waits to take the lock for the first step of the plan, and is not cancelled. -/
def Queued (m : Machine I σ ε α) (id : Nat) (mode : Mode) (p : Plan I σ ε α) : Prop :=
  ∃ t, m.threads[id]? = some t ∧ t.point.sought? = some mode ∧ t.plan = p ∧
    (t.wake = .pending ∨ t.wake = .granted)

section

variable {m m' last : Machine I σ ε α} {id r w : Nat} {mode : Mode} {p : Plan I σ ε α}
  {t t' : Thread I σ ε α} {wrote : List Nat} {move : Move I σ ε α}

/-! ## At rest -/

theorem Exact.admits_iff {waiting : List (Thread I σ ε α)} (h : m.Exact waiting none) :
    m.admits mode = true ↔ Free waiting mode := by
  -- the lock counts exactly, so that what it admits is read off the tasks
  have idle : m.writing = false ↔ insiders waiting none .exclusive = 0 := by
    have one := h.writing
    have at_most := h.one_writer
    cases writing : m.writing with
    | true => simp [one.1 writing]
    | false =>
      have not_one : insiders waiting none .exclusive ≠ 1 := fun h' =>
        Bool.false_ne_true (writing.symm.trans (one.2 h'))
      have nobody : insiders waiting none .exclusive = 0 := by omega
      simp [nobody]
  cases mode with
  | shared =>
    have sought := h.writersWaiting
    simp only [admits, Free, Bool.and_eq_true, Bool.not_eq_true', beq_iff_eq, idle]
    omega
  | exclusive =>
    have readers := h.readers
    simp only [admits, Free, Bool.and_eq_true, Bool.not_eq_true', beq_iff_eq, idle]
    omega

theorem Settled.asleep (h : m.Settled) (found : m.threads[id]? = some t)
    (seeks : t.point.sought? = some mode) : t.point = .asleep mode := by
  have placed : t.Placed := h.placed t.still (mem_scene found)
  unfold Thread.Placed at placed
  cases point : t.point with
  | asleep sought =>
    rw [point] at seeks
    cases seeks
    rfl
  | atGate => rw [point] at placed; exact placed.elim
  | returning => rw [point] at placed; exact placed.elim
  | _ => rw [point] at seeks; cases seeks

/-- A task that waits for the lock when no task is ready would be refused. -/
theorem Steady.refused (h : m.Steady) (rest : m.ready = []) (found : m.threads[id]? = some t)
    (seeks : t.point.sought? = some mode) : m.admits mode = false := by
  have asleep := h.guarded.settled.asleep found seeks
  by_cases pending : t.wake = .pending
  · exact h.alert.refused id t mode nofun found asleep pending
  -- a task that was woken would be ready
  · have ready : id ∈ m.ready := by
      refine h.alert.booked.awake id t nofun found pending fun outcome ended => ?_
      cases asleep.symm.trans ended
    rw [rest] at ready
    cases ready

theorem exists_of_seekers (some_seeks : seekers m.threads mode ≠ 0) :
    ∃ (id : ℕ) (t : Thread I σ ε α), m.threads[id]? = some t ∧ t.point.sought? = some mode := by
  obtain ⟨t, ht, seeks⟩ := List.countP_pos_iff.1 (Nat.pos_of_ne_zero some_seeks)
  obtain ⟨id, found⟩ := List.getElem?_of_mem ht
  exact ⟨id, t, found, of_decide_eq_true seeks⟩

/-- **At rest nobody waits for a lock that is free for it.** -/
theorem Steady.seekers_eq_zero (h : m.Steady) (rest : m.ready = []) (free : Free m.threads mode) :
    seekers m.threads mode = 0 := by
  by_contra some_seeks
  obtain ⟨id, t, found, seeks⟩ := exists_of_seekers some_seeks
  have refused := h.refused rest found seeks
  rw [h.guarded.tally.exact.of_still.admits_iff.2 free] at refused
  cases refused

/-! ## A task that waits -/

theorem Queued.of_stays (h : m.Queued id mode p)
    (stays : ∀ t, m.threads[id]? = some t → ∃ t', last.threads[id]? = some t' ∧
      t'.point = t.point ∧ t'.plan = t.plan ∧
        (t'.wake = t.wake ∨ t.wake = .pending ∧ t'.wake = .granted)) :
    last.Queued id mode p := by
  obtain ⟨t, found, seeks, plan, wake⟩ := h
  obtain ⟨t', found', point, plan', wake'⟩ := stays t found
  refine ⟨t', found', point ▸ seeks, plan'.trans plan, ?_⟩
  rcases wake' with same | ⟨-, granted⟩
  · rwa [same]
  · exact .inr granted

theorem getElem?_cancel_of_ne (m : Machine I σ ε α) (other : id ≠ w) :
    (m.cancel w).threads[id]? = m.threads[id]? := by
  unfold Machine.cancel
  split
  · rfl
  · split
    · rfl
    · exact m.getElem?_modify_of_ne other _
    · exact m.getElem?_modify_of_ne other _
    · rfl

/-- What a task is told does not move it while it waits. -/
theorem exists_tell (m : Machine I σ ε α) (w : Nat) (told : Outcome ε Unit)
    (found : m.threads[id]? = some t) :
    ∃ t', (m.tell w told).threads[id]? = some t' ∧ t'.point = t.point ∧ t'.plan = t.plan ∧
      (t'.wake = t.wake ∨ t.wake = .pending ∧ t'.wake = .granted) := by
  have informed :
      ∃ t', (m.modify w fun t => { t with told := t.told.or (some told) }).threads[id]? = some t' ∧
        t'.point = t.point ∧ t'.plan = t.plan ∧ t'.wake = t.wake := by
    by_cases hid : id = w
    · subst hid
      exact ⟨_, (m.getElem?_modify_self id _).trans (congrArg _ found), rfl, rfl, rfl⟩
    · exact ⟨t, (m.getElem?_modify_of_ne hid _).trans found, rfl, rfl, rfl⟩
  obtain ⟨t', found', point, plan, wake⟩ := informed
  unfold Machine.tell
  dsimp only
  split
  · refine ⟨_, (getElem?_awaken _ w id).trans (congrArg _ found'), ?_⟩
    have stays : t'.Stays (if id = w then t'.rouse else t') := by
      split
      · exact t'.stays_rouse
      · exact .refl t'
    exact ⟨stays.point.trans point, stays.plan.trans plan, wake ▸ stays.wake⟩
  · exact ⟨t', found', point, plan, .inl wake⟩

/-- A task that waits, is ready and is admitted takes the lock when its turn comes. -/
theorem Queued.reaches (h : m.Queued id mode p) (settled : m.Settled) (ready : id ∈ m.ready)
    (booked : m.Booked none) (free : m.admits mode = true) :
    m.Reaches id (((m.pick id).rise id).take mode) true p := by
  obtain ⟨t, found, seeks, rfl, wake⟩ := h
  -- who is ready is awake, and one that waits and is not cancelled has then been granted its turn
  obtain ⟨-, u, found', awake⟩ := booked.ready id ready
  rw [← Option.some.inj (found.symm.trans found')] at awake
  exact .turn ready found (.again (settled.asleep found seeks) (wake.resolve_left awake) free)

/-- A task that waits for a lock that admits it has been woken. -/
theorem Queued.ready (h : m.Queued id mode p) (steady : m.Steady) (free : m.admits mode = true) :
    id ∈ m.ready := by
  obtain ⟨t, found, seeks, -, -⟩ := h
  have asleep := steady.guarded.settled.asleep found seeks
  refine steady.alert.booked.awake id t nofun found (fun pending => ?_) fun outcome ended => ?_
  · have refused := steady.alert.refused id t mode nofun found asleep pending
    rw [free] at refused
    cases refused
  · cases asleep.symm.trans ended

theorem queued_sleep (found : m.threads[id]? = some t) (mode : Mode) (p : Plan I σ ε α) :
    (m.sleep id mode p).Queued id mode p :=
  ⟨_, (getElem?_modify_self _ id _).trans (congrArg _ found), rfl, rfl, .inl rfl⟩

/-- A task that has slept takes the lock, sleeps on, or ends. -/
theorem Turn.asleep_cases (h : Turn id m t wrote last) (asleep : t.point = .asleep mode) :
    (t.wake = .granted ∧ (m.rise id).admits mode = true ∧
      Stretch id ((m.rise id).take mode) true t.plan wrote last) ∨
    (t.wake = .granted ∧ (m.rise id).admits mode = false ∧
      last = (m.rise id).sleep id mode t.plan) ∨
    (t.wake ≠ .granted ∧ last = ((m.rise id).withdraw mode).retire id .cancelled) := by
  cases h with
  | goes wakes goes =>
    cases wakes with
    | again point called free =>
      cases asleep.symm.trans point
      exact .inl ⟨called, free, goes⟩
    | withdraw point uncalled =>
      cases asleep.symm.trans point
      exact .inr (.inr ⟨uncalled, goes.of_finish.2⟩)
    | fresh point => cases asleep.symm.trans point
    | leave point => cases asleep.symm.trans point
    | answered point => cases asleep.symm.trans point
    | pass point => cases asleep.symm.trans point
    | giveUp point => cases asleep.symm.trans point
    | drop point => cases asleep.symm.trans point
    | unanswered point =>
      rcases point with point | ⟨turns, point⟩
      all_goals cases asleep.symm.trans point
  | asleep point called busy =>
    cases asleep.symm.trans point
    exact .inr (.inl ⟨called, busy, rfl⟩)
  | later point => cases asleep.symm.trans point
  | ended point => cases asleep.symm.trans point

/-- A ready task has its turn. -/
theorem Settled.exists_turn_of_ready (h : m.Settled) (ready : id ∈ m.ready)
    (found : m.threads[id]? = some t) :
    ∃ wrote, Turn id (m.pick id) t wrote (m.move (.turn id)) := by
  have picked : (m.pick id).Settled := h.of_core rfl
  rw [Machine.move, if_pos ready]
  exact picked.exists_turn found

/-- The tasks that do not run stay. -/
theorem Step.exists_stays (goes : Step m move wrote last) (steady : m.Steady)
    (moves : move.task? = some w) (other : id ≠ w) (found : m.threads[id]? = some t) :
    ∃ t', last.threads[id]? = some t' ∧ t.Stays t' := by
  cases goes with
  | @turn _ u _ _ _ found' goes =>
    cases moves
    have orderly : (m.pick w).Orderly none := steady.orderly.frame rfl rfl rfl
    have placed : u.Placed := steady.guarded.settled.placed u.still (mem_scene found')
    exact goes.exists_stays orderly found' placed other found
  | @reply _ world under _ question next _ _ _ _ found' _ goes =>
    cases moves
    have found'' := getElem?_scene_of_found found'
    have running : m.Running w false (next (world.answer question)) :=
      steady.orderly.running_of_point found'' (by simp [Thread.still]) (by simp [Thread.still])
    have back : Stirs w m (m.handBack under) :=
      stirs_handBack running.orderly.sleepers_ne under
    exact (back.trans (goes.stirs (running.handBack under))).exists_stays other found
  | delay =>
    cases moves
    exact ⟨t, (m.getElem?_modify_of_ne other _).trans found, .refl t⟩
  | nobody => exact ⟨t, found, .refl t⟩
  | unready => exact ⟨t, found, .refl t⟩
  | unasked => exact ⟨t, found, .refl t⟩
  | _ => cases moves

theorem Queued.stays (h : m.Queued id mode p)
    (stays : ∀ t, m.threads[id]? = some t → ∃ t', last.threads[id]? = some t' ∧ t.Stays t') :
    last.Queued id mode p := by
  refine h.of_stays fun t found => ?_
  obtain ⟨t', found', stays⟩ := stays t found
  exact ⟨t', found', stays.point, stays.plan, stays.wake⟩

theorem Queued.toldOf_eq (h : m.Queued id mode p)
    (stays : ∀ t, m.threads[id]? = some t → ∃ t', last.threads[id]? = some t' ∧ t.Stays t') :
    last.toldOf id = m.toldOf id := by
  obtain ⟨t, found, -⟩ := h
  obtain ⟨t', found', stays⟩ := stays t found
  rw [toldOf, toldOf, found, found']
  exact stays.told

/-- **A task waits on** until it takes the lock in a turn of its own, or is cancelled. -/
theorem Step.queued (goes : Step m move wrote last) (steady : m.Steady) (h : m.Queued id mode p)
    (uncancelled : move ≠ .cancel id) :
    last.Queued id mode p ∨ move = .turn id ∧ ∃ m', m.Reaches id m' true p := by
  have same (threads : last.threads[id]? = m.threads[id]?) : last.Queued id mode p :=
    h.of_stays fun t found => ⟨t, threads.trans found, rfl, rfl, .inl rfl⟩
  have ⟨t, found, seeks, plan, wake⟩ := h
  have asleep := steady.guarded.settled.asleep found seeks
  cases moves : move.task? with
  | none =>
    -- no task moves: one that is told something waits on as it did
    left
    cases goes with
    | start => exact same (List.getElem?_append_left (List.getElem?_eq_some_iff.1 found).1)
    | cancel => exact same (m.getElem?_cancel_of_ne fun hid => uncancelled (hid ▸ rfl))
    | tell => exact h.of_stays fun t found => m.exists_tell _ _ found
    | _ => cases moves
  | some w =>
    by_cases hid : id = w
    · subst hid
      cases goes with
      | turn ready found' goes =>
        cases moves
        cases found.symm.trans found'
        obtain ⟨-, u, found'', awake⟩ := steady.alert.booked.ready id ready
        cases found.symm.trans found''
        have called := wake.resolve_left awake
        -- its own turn: it goes in, or the lock has been taken meanwhile and it sleeps on
        rcases goes.asleep_cases asleep with ⟨-, free, -⟩ | ⟨-, -, rfl⟩ | ⟨uncalled, -⟩
        · have reaches : m.Reaches id _ true t.plan := .turn ready found (.again asleep called free)
          exact .inr ⟨rfl, _, plan ▸ reaches⟩
        · exact .inl (plan ▸ queued_sleep (m := (m.pick id).rise id) found mode t.plan)
        · exact absurd called uncalled
      | nobody => exact .inl (same rfl)
      | unready => exact .inl h
      | reply found' =>
        cases moves
        cases found.symm.trans found'
        cases asleep
      | delay found' =>
        cases moves
        cases found.symm.trans found'
        cases asleep
      | unasked => exact .inl h
      | _ => cases moves
    · exact .inl (h.stays fun t found => goes.exists_stays steady moves hid found)

/-- **Nobody waits in vain.**  A task that waits for the lock and is not cancelled has taken it
when the run has come to rest with the lock free for it. -/
theorem Queued.exists_reaches (h : m.Queued id mode p) (steady : m.Steady)
    (moves : List (Move I σ ε α)) (bracketed : ∀ plan, .start plan ∈ moves → plan.Bracketed)
    (uncancelled : .cancel id ∉ moves) (rest : (m.after moves).ready = [])
    (free : Free (m.after moves).threads mode) :
    ∃ before after m', moves = before ++ .turn id :: after ∧
      (m.after before).Reaches id m' true p := by
  -- by induction on the moves: until its turn comes the task stays queued
  induction moves generalizing m with
  | nil =>
    obtain ⟨t, found, seeks, -, -⟩ := h
    have refused := steady.refused rest found seeks
    rw [steady.guarded.tally.exact.of_still.admits_iff.2 free] at refused
    cases refused
  | cons move moves ih =>
    obtain ⟨wrote, goes⟩ := steady.guarded.settled.exists_step move
    have goes_on : move ≠ .cancel id := fun same => uncancelled (same ▸ List.mem_cons_self)
    rcases goes.queued steady h goes_on with queued | ⟨rfl, m', reaches⟩
    · have next : (m.move move).Steady :=
        steady.step goes fun plan same => bracketed plan (same ▸ List.mem_cons_self)
      obtain ⟨before, after, m', rfl, reaches⟩ := ih queued next
        (fun plan hplan => bracketed plan (List.mem_cons_of_mem _ hplan))
        (fun hid => uncancelled (List.mem_cons_of_mem _ hid)) rest free
      exact ⟨move :: before, after, m', rfl, reaches⟩
    · exact ⟨[], moves, m', rfl, reaches⟩

/-! ## The last writer that waits is cancelled -/

theorem pointOf?_eq (m : Machine I σ ε α) (id : ℕ) :
    m.pointOf? id = (m.scene[id]?).map (·.point) := by
  rw [pointOf?, getElem?_scene, Option.map_map]
  rfl

/-- A writer that waits is cancelled. -/
theorem exists_cancel (found : m.threads[w]? = some t) (asleep : t.point = .asleep mode) :
    ∃ t', (m.cancel w).threads[w]? = some t' ∧ t'.point = .asleep mode ∧
      (t'.wake = .cancelled ∨ t'.wake = .revoked) := by
  rw [Machine.cancel, found]
  dsimp only
  rw [asleep]
  cases wake : t.wake with
  | pending => exact ⟨_, (m.getElem?_modify_self w _).trans (congrArg _ found), asleep, .inl rfl⟩
  | granted => exact ⟨_, (m.getElem?_modify_self w _).trans (congrArg _ found), asleep, .inr rfl⟩
  | cancelled => exact ⟨t, found, asleep, .inl wake⟩
  | revoked => exact ⟨t, found, asleep, .inr wake⟩

/-- A task that was cancelled asleep ends in its next turn. -/
theorem Steady.turn_cancelled (h : m.Steady) (found : m.threads[w]? = some t)
    (asleep : t.point = .asleep mode) (uncalled : t.wake = .cancelled ∨ t.wake = .revoked) :
    m.move (.turn w) = (((m.pick w).rise w).withdraw mode).retire w .cancelled := by
  have ready : w ∈ m.ready := by
    refine h.alert.booked.awake w t nofun found (fun pending => ?_) fun outcome ended => ?_
    · rcases uncalled with wake | wake <;> cases pending.symm.trans wake
    · cases asleep.symm.trans ended
  have called (granted : t.wake = .granted) : False := by
    rcases uncalled with wake | wake <;> cases granted.symm.trans wake
  obtain ⟨wrote, goes⟩ := h.guarded.settled.exists_turn_of_ready ready found
  rcases goes.asleep_cases asleep with ⟨granted, -⟩ | ⟨granted, -⟩ | ⟨-, same⟩
  · exact (called granted).elim
  · exact (called granted).elim
  · exact same

/-- The last writer that waits no longer stands in the way of readers when it was cancelled. -/
theorem Steady.admits_cancelled (h : m.Steady) (found : m.threads[w]? = some t)
    (seeks : t.point.sought? = some .exclusive) (idle : insiders m.threads none .exclusive = 0)
    (alone : seekers m.threads .exclusive = 1) :
    ((m.cancel w).move (.turn w)).outcome? w = some .cancelled ∧
      ((m.cancel w).move (.turn w)).admits .shared = true := by
  have cancelled : (m.cancel w).Steady := h.step .cancel nofun
  obtain ⟨t', found', asleep, uncalled⟩ :=
    exists_cancel found (h.guarded.settled.asleep found seeks)
  rw [cancelled.turn_cancelled found' asleep uncalled]
  constructor
  · have risen : (((m.cancel w).pick w).rise w).scene[w]? = some t'.still :=
      getElem?_scene_of_found found'
    rw [outcome?, pointOf?_eq, getElem?_scene_retire, scene_withdraw, risen]
    rfl
  · have exact := h.guarded.tally.exact.of_still
    have writing : (m.cancel w).writing = false := by
      have same : (m.cancel w).writing = m.writing := congrArg (·.writing) (m.core_cancel w)
      rw [same]
      cases writing : m.writing with
      | false => rfl
      | true => cases idle.symm.trans (exact.writing.1 writing)
    -- it was the only one that waited, and withdraws
    have waiting : (m.cancel w).writersWaiting = 1 := by
      have same : (m.cancel w).writersWaiting = m.writersWaiting :=
        congrArg (·.writersWaiting) (m.core_cancel w)
      rw [same, exact.writersWaiting, alone]
      rfl
    rw [admits_of_frame (Machine.frame_retire ..)]
    show (Machine.withdraw _ .exclusive).core.admits .shared = true
    rw [core_withdraw_exclusive]
    show (!(m.cancel w).writing && (m.cancel w).writersWaiting - 1 == 0) = true
    rw [writing, waiting]
    rfl

/-- The tasks that wait stay when a writer that waits is cancelled and ends. -/
theorem Steady.exists_stays_cancelled (h : m.Steady) (other : r ≠ w)
    (found : m.threads[r]? = some t) :
    ∃ t', ((m.cancel w).move (.turn w)).threads[r]? = some t' ∧ t.Stays t' := by
  have cancelled : (m.cancel w).Steady := h.step .cancel nofun
  obtain ⟨wrote, goes⟩ := cancelled.guarded.settled.exists_step (.turn w)
  exact goes.exists_stays cancelled rfl other ((m.getElem?_cancel_of_ne other).trans found)

/-- A task that holds the lock until told takes it in its turn, and readers are admitted as
before. -/
theorem Steady.turn_holder (h : m.Steady) (free : m.admits .shared = true)
    {next : Outcome ε Unit → Plan I σ ε α} (queued : m.Queued r .shared (.hold .shared next))
    (untold : m.toldOf r = none) :
    (m.move (.turn r)).pointOf? r = some (.inside .shared) ∧
      (m.move (.turn r)).admits .shared = true := by
  have ready := queued.ready h free
  obtain ⟨t, found, seeks, plan, wake⟩ := queued
  have asleep := h.guarded.settled.asleep found seeks
  obtain ⟨-, u, found', awake⟩ := h.alert.booked.ready r ready
  cases found.symm.trans found'
  have called := wake.resolve_left awake
  obtain ⟨wrote, turn⟩ := h.guarded.settled.exists_turn_of_ready ready found
  rcases turn.asleep_cases asleep with ⟨-, -, goes⟩ | ⟨-, busy, -⟩ | ⟨uncalled, -⟩
  · rw [plan] at goes
    generalize m.move (.turn r) = last at goes ⊢
    cases goes with
    | stop stops =>
      cases stops with
      | hold =>
        have risen : ((((m.pick r).rise r).take .shared).report r .acquired).scene[r]? =
            some t.still := getElem?_scene_of_found found
        refine ⟨?_, free⟩
        rw [pointOf?_eq, getElem?_scene_park, risen]
        rfl
    | go step =>
      cases step with
      | hold heard => cases untold.symm.trans heard
  · cases free.symm.trans busy
  · exact absurd called uncalled

/-- **All readers that wait go in**, one after another, when the lock admits them. -/
theorem Steady.all_inside {rs : List Nat} (h : m.Steady) (free : m.admits .shared = true)
    (distinct : rs.Nodup)
    (queued : ∀ r ∈ rs, m.toldOf r = none ∧ ∃ next, m.Queued r .shared (.hold .shared next))
    (waits : r ∈ rs ∨ m.pointOf? r = some (.inside .shared)) :
    (m.after (rs.map .turn)).pointOf? r = some (.inside .shared) := by
  induction rs generalizing m with
  | nil => exact waits.resolve_left List.not_mem_nil
  | cons first rs ih =>
    obtain ⟨untold, next, waiting⟩ := queued first List.mem_cons_self
    obtain ⟨inside, free'⟩ := h.turn_holder free waiting untold
    obtain ⟨wrote, goes⟩ := h.guarded.settled.exists_step (.turn first)
    have others {i : ℕ} {t : Thread I σ ε α} (other : i ≠ first) (found : m.threads[i]? = some t) :
        ∃ t', (m.move (.turn first)).threads[i]? = some t' ∧ t.Stays t' :=
      goes.exists_stays h rfl other found
    -- the lock admits readers as before, and the readers that have not had their turn stay
    refine ih (h.step goes nofun) free' (List.nodup_cons.1 distinct).2 (fun r hr => ?_) ?_
    · have other : r ≠ first := fun same => (List.nodup_cons.1 distinct).1 (same ▸ hr)
      obtain ⟨untold, next, waiting⟩ := queued r (List.mem_cons_of_mem _ hr)
      have stays := fun t found => others (t := t) other found
      exact ⟨(waiting.toldOf_eq stays).trans untold, next, waiting.stays stays⟩
    · by_cases other : r = first
      · exact .inr (other ▸ inside)
      · rcases waits with hr | before
        · exact .inl ((List.mem_cons.1 hr).resolve_left other)
        · right
          unfold pointOf? at before ⊢
          obtain ⟨t, found, point⟩ := Option.map_eq_some_iff.1 before
          obtain ⟨t', found', stays⟩ := others other found
          rw [found', Option.map_some, stays.point, point]

end

/-- **No lost wake-up.**  Tasks start, run, are cancelled, told and answered in any order, and
none gives back a lock that it does not have.

When no task can run, nobody waits for the lock if nobody is inside, no writer waits if nobody
who would be in its way is inside, and no reader waits if no writer is inside or waits.

A task that waits and is not cancelled has taken the lock, in a turn of its own, when the run
has come to rest with nobody in its way.

When the last writer that waits is cancelled and no other one is inside, its next turn ends it
and makes all readers that wait ready, and each takes the lock if it runs then.  If they hold
it until told, they are all inside after their turns. -/
theorem no_lost_wakeup (data : σ) (moves : List (Move I σ ε α))
    (bracketed : ∀ plan, .start plan ∈ moves → plan.Bracketed) :
    let m := (initial data).after moves
    (m.ready = [] →
      ((∀ mode, insiders m.threads none mode = 0) → ∀ mode, seekers m.threads mode = 0) ∧
      (insiders m.threads none .exclusive = 0 → insiders m.threads none .shared = 0 →
        seekers m.threads .exclusive = 0) ∧
      (insiders m.threads none .exclusive = 0 → seekers m.threads .exclusive = 0 →
        seekers m.threads .shared = 0)) ∧
    (∀ id mode p later, m.Queued id mode p →
      (∀ plan, .start plan ∈ later → plan.Bracketed) → .cancel id ∉ later →
      (m.after later).ready = [] → Free (m.after later).threads mode →
      ∃ before after m', later = before ++ .turn id :: after ∧
        (m.after before).Reaches id m' true p) ∧
    (∀ w t, m.threads[w]? = some t → t.point.sought? = some .exclusive →
      insiders m.threads none .exclusive = 0 → seekers m.threads .exclusive = 1 →
      let last := m.after [.cancel w, .turn w]
      last.outcome? w = some .cancelled ∧
      (∀ r p, m.Queued r .shared p → r ∈ last.ready ∧ ∃ m', last.Reaches r m' true p) ∧
      ∀ rs : List ℕ, rs.Nodup →
        (∀ r ∈ rs, m.toldOf r = none ∧ ∃ next, m.Queued r .shared (.hold .shared next)) →
        ∀ r ∈ rs, (last.after (rs.map .turn)).pointOf? r = some (.inside .shared)) := by
  intro m
  have steady : m.Steady := steady_after data moves bracketed
  refine ⟨fun rest => ?_, fun id mode p later queued => ?_, fun w t found seeks idle alone => ?_⟩
  · have no_writer : Free m.threads .exclusive → seekers m.threads .exclusive = 0 :=
      steady.seekers_eq_zero rest
    have no_reader : Free m.threads .shared → seekers m.threads .shared = 0 :=
      steady.seekers_eq_zero rest
    refine ⟨fun nobody mode => ?_, fun idle unread => no_writer ⟨idle, unread⟩,
      fun idle unsought => no_reader ⟨idle, unsought⟩⟩
    have unsought := no_writer ⟨nobody _, nobody _⟩
    cases mode with
    | shared => exact no_reader ⟨nobody _, unsought⟩
    | exclusive => exact unsought
  · exact queued.exists_reaches steady later
  · intro last
    obtain ⟨ended, free⟩ := steady.admits_cancelled found seeks idle alone
    have last_steady : last.Steady := steady.after _ (by simp)
    have stays {r : ℕ} {p : Plan I σ ε α} (queued : m.Queued r .shared p) (u : Thread I σ ε α)
        (found' : m.threads[r]? = some u) : ∃ t', last.threads[r]? = some t' ∧ u.Stays t' := by
      have other : r ≠ w := by
        rintro rfl
        obtain ⟨v, found'', seeks', -⟩ := queued
        cases found.symm.trans found''
        cases seeks.symm.trans seeks'
      exact steady.exists_stays_cancelled other found'
    refine ⟨ended, fun r p queued => ?_, fun rs distinct queued r hr => ?_⟩
    · have waits : last.Queued r .shared p := queued.stays (stays queued)
      have ready := waits.ready last_steady free
      have settled := last_steady.guarded.settled
      exact ⟨ready, _, waits.reaches settled ready last_steady.alert.booked free⟩
    · refine last_steady.all_inside free distinct (fun r hr => ?_) (.inl hr)
      obtain ⟨untold, next, waits⟩ := queued r hr
      exact ⟨(waits.toldOf_eq (stays waits)).trans untold, next, waits.stays (stays waits)⟩

/-- A reader is inside, a writer waits for it, and a reader waits behind the writer.  The
writer is cancelled, so that the reader goes in. -/
theorem no_lost_wakeup_readers :
    let moves : List (Move Interface.silent Unit Empty Unit) :=
      [.start (.occupy .shared), .turn 0, .start (.occupy .exclusive), .turn 1,
        .start (.occupy .shared), .turn 2]
    let m := (initial ()).after moves
    (∀ plan, .start plan ∈ moves → plan.Bracketed) ∧ m.ready = [] ∧
      seekers m.threads .exclusive = 1 ∧ seekers m.threads .shared = 1 ∧
      (m.after [.cancel 1, .turn 1, .turn 2]).pointOf? 2 = some (.inside .shared) := by
  intro moves m
  have bracketed : ∀ plan, .start plan ∈ moves → plan.Bracketed := by
    intro plan hplan
    simp only [moves, List.mem_cons, Move.start.injEq, reduceCtorEq, List.not_mem_nil, or_false,
      false_or] at hplan
    rcases hplan with rfl | rfl | rfl
    all_goals exact fun _ => trivial
  obtain ⟨-, -, cancelled⟩ := no_lost_wakeup () moves bracketed
  have writer : m.threads[1]? =
      some ⟨.occupy .exclusive, .asleep .exclusive, .pending, none, false⟩ := by
    simp only [m, moves]
    cbv
  have reader : m.threads[2]? =
      some ⟨.occupy .shared, .asleep .shared, .pending, none, false⟩ := by
    simp only [m, moves]
    cbv
  obtain ⟨-, -, inside⟩ := cancelled 1 _ writer rfl (by decide +kernel) (by decide +kernel)
  refine ⟨bracketed, by decide +kernel, by decide +kernel, by decide +kernel, ?_⟩
  refine inside [2] (by decide) (fun r hr => ?_) 2 List.mem_cons_self
  rw [List.mem_singleton.1 hr]
  have untold : m.toldOf 2 = none := by
    rw [toldOf, reader]
    rfl
  exact ⟨untold, .finish, _, reader, rfl, rfl, .inl rfl⟩

end Machine

end SignedOrders.Tasks
