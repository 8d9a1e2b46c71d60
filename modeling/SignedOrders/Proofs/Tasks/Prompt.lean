import SignedOrders.Proofs.Tasks.Asking
import SignedOrders.Proofs.Tasks.Rest
import SignedOrders.Proofs.Tasks.Wakeup

/-!
# Tasks that wait for nobody

A machine is **loose** when none of its tasks waits for another one: each has ended, is at its
beginning, or is suspended until its answer comes.

A task that runs then finds the lock and the turnstile free (`Sole.admits`, `Sole.isOpen`).  It
goes on until it ends or asks (`Stretch.halts`), so that the machine stays loose, whatever the
answers are and whichever tasks are cancelled (`Step.loose`).

So a new task that asks nothing comes to its end in its first turn, as its plan evaluates
(`Due.turn`), and it is ready until then (`Due.ready`, `Step.due`).
-/

namespace SignedOrders.Tasks

variable {I : Interface} {σ ε α : Type}

/-- The task is in no other's way. -/
structure Thread.Clear (t : Thread I σ ε α) : Prop where
  held : t.point.held? = none
  sought : t.point.sought? = none
  door : t.point ≠ .atTurnstile
  outside : ¬ Machine.Passes t

/-- The task has ended, or it waits for its first turn or an answer, and it does not hold the
lock until told. -/
def Thread.Loose (t : Thread I σ ε α) : Prop :=
  (∃ outcome, t.point = .ended outcome) ∨
    t.Confined True False ∧ (t.point = .fresh ∧ t.serial = false ∨ t.point.suspended = true)

theorem Thread.Loose.clear {t : Thread I σ ε α} (h : t.Loose) : t.Clear := by
  obtain ⟨plan, point, wake, told, serial⟩ := t
  rcases h with ⟨outcome, rfl⟩ | ⟨confined, ⟨rfl, rfl⟩ | suspended⟩
  · exact ⟨rfl, rfl, nofun, fun passes => passes.going outcome rfl⟩
  · exact ⟨rfl, rfl, nofun, fun passes => nomatch passes.inside⟩
  · obtain ⟨-, outside, held⟩ := confined.outside suspended
    refine ⟨held, Machine.sought?_of_suspended suspended, ?_, fun passes => ?_⟩
    · rintro rfl
      cases suspended
    · cases passes.inside.symm.trans outside

theorem Thread.Loose.confined {t : Thread I σ ε α} (h : t.Loose)
    (going : ∀ outcome, t.point ≠ .ended outcome) : t.Confined True False := by
  rcases h with ⟨outcome, ended⟩ | ⟨confined, -⟩
  · exact absurd ended (going outcome)
  · exact confined

namespace Machine

/-- None of the tasks waits for another one. -/
def Loose (m : Machine I σ ε α) : Prop :=
  ∀ (id : Nat) (t : Thread I σ ε α), m.scene[id]? = some t → t.Loose

/-- The task runs, and no other task is in its way. -/
structure Sole (m : Machine I σ ε α) (id : Nat) (held : Bool) (p : Plan I σ ε α) : Prop where
  running : m.Running id held p
  tally : Tally m (m.others id) (Machine.running held p) none
  manned : m.Manned
  others : ∀ (other : Nat) t, other ≠ id → m.scene[other]? = some t → t.Clear

/-- The task is new and waits for its first turn, in which it is to follow the plan. -/
structure Due (m : Machine I σ ε α) (id : Nat) (p : Plan I σ ε α) : Prop where
  found : m.scene[id]? = some ⟨p, .fresh, .pending, none, false⟩
  called : m.wakeOf id = .granted

section

variable {m m' last : Machine I σ ε α} {id : Nat} {held held' : Bool} {p p' : Plan I σ ε α}
  {t u : Thread I σ ε α} {new wrote : List Nat} {move : Move I σ ε α} {asks : Prop}
  {inside : Bool} {outcome : Outcome ε α}

/-! ## The lock and the turnstile are free -/

/-- A task that runs is admitted to the lock. -/
theorem Sole.admits (h : m.Sole id false p) (mode : Mode) : m.admits mode = true := by
  have clear : ∀ t ∈ m.others id, t.Clear := by
    intro t ht
    obtain ⟨other, hne, found⟩ := List.mem_eraseIdx_iff_getElem?.1 ht
    exact h.others other t hne found
  obtain ⟨readers, writing, waiting⟩ :=
    h.tally.unused (fun t ht => (clear t ht).held) fun t ht => (clear t ht).sought
  cases mode with
  | shared => simp [Machine.admits, writing, waiting]
  | exclusive => simp [Machine.admits, writing, readers]

/-- A task that runs outside the turnstile may pass it. -/
theorem Sole.isOpen (h : m.Sole id held p) (found : m.scene[id]? = some t)
    (outside : t.serial = false) : m.isOpen .turnstile = true := by
  have queue : m.turnstile.queue = [] := by
    refine h.running.orderly.queue_eq_nil fun other u waits found => ?_
    exact (h.others other u (runs_ne_iff.1 waits) found).door
  have free : m.turnstile.occupied = false := by
    refine h.manned.free fun other u found' passes => ?_
    by_cases hid : other = id
    · subst hid
      rw [Option.some.inj (found.symm.trans found')] at outside
      cases outside.symm.trans passes.inside
    · exact (h.others other u hid found').outside passes
  show (!m.turnstile.occupied && m.turnstile.queue.all _) = true
  rw [queue, free]
  rfl

/-! ## A running task -/

theorem Goes.sole (h : Goes id m held p new m' held' p') (sole : m.Sole id held p)
    (found : m.scene[id]? = some t) (going : ∀ outcome, t.point ≠ .ended outcome)
    (bracketed : p.Bracketed) : m'.Sole id held' p' :=
  ⟨h.running sole.running, h.tally bracketed sole.tally, h.manned sole.manned found going,
    fun other u hne found =>
      sole.others other u hne ((getElem?_of_others h.others_eq hne).symm.trans found)⟩

/-- **A task that runs goes on until it ends or asks.** -/
theorem Stretch.halts (h : Stretch id m held p wrote last) (sole : m.Sole id held p)
    (found : m.scene[id]? = some t) (going : ∀ outcome, t.point ≠ .ended outcome)
    (hp : p.Confined asks False t.serial) :
    ∃ u, last.scene[id]? = some u ∧
      ((∃ outcome, u.point = .ended outcome) ∨ u.point.suspended = true) := by
  induction h generalizing t with
  | @stop m held p last h =>
    cases h with
    | @finish outcome =>
      exact ⟨_, (m.getElem?_scene_retire id outcome).trans (congrArg _ found), .inl ⟨_, rfl⟩⟩
    | ask => exact ⟨_, (m.getElem?_scene_park id ..).trans (congrArg _ found), .inr rfl⟩
    | sleep _ busy => cases (sole.admits _).symm.trans busy
    | hold => exact hp.1.elim
    | queue busy => cases (sole.isOpen found hp.1).symm.trans busy
  | go h _ ih =>
    obtain ⟨serial, found', hp'⟩ := h.confined found hp
    exact ih (h.sole sole found going hp.bracketed) found' going hp'

theorem Stretch.loose (h : Stretch id m held p wrote last) (sole : m.Sole id held p)
    (found : m.scene[id]? = some t) (going : ∀ outcome, t.point ≠ .ended outcome)
    (hp : p.Confined True False t.serial) : ∃ u, last.scene[id]? = some u ∧ u.Loose := by
  obtain ⟨u, found', halts⟩ := h.halts sole found going hp
  refine ⟨u, found', halts.imp_right fun suspended => ⟨?_, .inr suspended⟩⟩
  obtain ⟨v, found'', confined⟩ := h.confined found hp
  rwa [Option.some.inj (found'.symm.trans found'')]

/-- A step of a running task leaves the plan to evaluate as it did. -/
theorem Goes.evaluate_eq (h : Goes id m held p new m' held' p') (hp : p.Confined asks False inside)
    (respond : (question : I.Question) → I.Answer question) :
    p'.evaluate respond m'.data = p.evaluate respond m.data := by
  cases h with
  | peek => rfl
  | mark => rfl
  | relinquish => exact hp.elim
  | @take mode => cases mode <;> rfl
  | shared =>
    rw [data_release]
    rfl
  | exclusive done => rw [data_release, Plan.evaluate, done]
  | refused refused => rw [data_release, Plan.evaluate, Plan.evaluate, refused]
  | hold => exact hp.1.elim
  | pass => rfl
  | serial => rfl

/-- **A task that comes to its end without asking** leaves the data and has the outcome that its
plan evaluates to. -/
theorem Stretch.evaluate_eq (h : Stretch id m held p wrote last) (found : m.scene[id]? = some t)
    (hp : p.Confined asks False t.serial) (found' : last.scene[id]? = some u)
    (ended : u.point = .ended outcome)
    (respond : (question : I.Question) → I.Answer question) :
    p.evaluate respond m.data = (last.data, outcome) := by
  induction h generalizing t with
  | @stop m held p last h =>
    cases h with
    | @finish outcome' =>
      rw [getElem?_scene_retire, found] at found'
      cases found'
      cases ended
      rw [data_retire]
      rfl
    | ask =>
      rw [getElem?_scene_park, found] at found'
      cases found'
      cases ended
    | @sleep mode =>
      have same : (m.arrive mode).scene[id]? = some t := by cases mode <;> exact found
      have parked := ((m.arrive mode).getElem?_scene_park id ..).symm.trans found'
      rw [same] at parked
      cases parked
      cases ended
    | hold => exact hp.1.elim
    | queue =>
      have parked := ((m.joinQueue .turnstile id).getElem?_scene_park id ..).symm.trans found'
      rw [show (m.joinQueue .turnstile id).scene[id]? = some t from found] at parked
      cases parked
      cases ended
  | go h _ ih =>
    obtain ⟨serial, found'', hp'⟩ := h.confined found hp
    rw [← h.evaluate_eq hp respond]
    exact ih found'' hp' found'

/-! ## A loose machine -/

theorem Turn.loose (h : Turn id m t wrote last) (orderly : m.Orderly none)
    (tally : Tally m m.scene none none) (manned : m.Manned) (found : m.threads[id]? = some t)
    (placed : t.Placed) (loose : m.Loose) : ∃ u, last.scene[id]? = some u ∧ u.Loose := by
  have found' := getElem?_scene_of_found found
  have own : t.still.Loose := loose id _ found'
  cases h with
  | @goes m' held p _ _ wakes goes =>
    have sole : m'.Sole id held p := by
      refine ⟨wakes.running orderly found placed, wakes.tally placed found' tally,
        wakes.manned manned, fun other u _ found => ?_⟩
      rw [wakes.scene_eq] at found
      exact (loose other u found).clear
    rw [← wakes.scene_eq] at found'
    exact goes.loose sole found' wakes.going (wakes.confined (own.confined wakes.going).plan)
  | asleep point =>
    have sought := own.clear.sought
    rw [Thread.still, point] at sought
    cases sought
  | later point =>
    have confined := own.confined (by simp [Thread.still, point])
    exact ⟨_, (m.getElem?_scene_awaitAnswer ..).trans (congrArg _ found'),
      .inr ⟨confined.later point, .inr rfl⟩⟩
  | ended point => exact ⟨_, found', .inl ⟨_, point⟩⟩

/-- **A loose machine stays loose** in every move. -/
theorem Step.loose (goes : Step m move wrote last) (steady : m.Steady) (manned : m.Manned)
    (loose : m.Loose) (given : ∀ plan, move = .start plan → plan.Confined True False false) :
    last.Loose := by
  refine goes.each loose (fun id t moves found => ?_) fun plan start =>
    .inr ⟨⟨given plan start, by rintro ⟨⟩⟩, .inl ⟨rfl, rfl⟩⟩
  cases goes with
  | @turn _ u _ _ _ found' goes =>
    cases moves
    have placed : u.Placed := steady.guarded.settled.placed u.still (mem_scene found')
    exact goes.loose (steady.orderly.frame rfl rfl rfl) (steady.guarded.tally.congr rfl rfl rfl)
      manned found' placed loose
  | nobody => cases moves; exact ⟨t, found, loose _ t found⟩
  | unready => cases moves; exact ⟨t, found, loose _ t found⟩
  | @reply _ world under _ question next _ _ _ _ found' _ goes =>
    cases moves
    have found'' := getElem?_scene_of_found found'
    have confined := (loose _ _ found'').confined (by rintro _ ⟨⟩)
    obtain rfl : under = none := (confined.outside rfl).2.2
    have sole : m.Sole id false (next (world.answer question)) := by
      refine ⟨steady.orderly.running_of_point found'' (by simp [Thread.still])
        (by simp [Thread.still]), steady.guarded.tally.of_found found'', manned, ?_⟩
      exact fun other u _ found => (loose other u found).clear
    exact goes.loose sole found'' (by rintro _ ⟨⟩) (confined.plan.2 _)
  | delay found' =>
    cases moves
    have found'' := getElem?_scene_of_found found'
    have confined := (loose _ _ found'').confined (by rintro _ ⟨⟩)
    exact ⟨_, (m.getElem?_scene_awaitAnswer ..).trans (congrArg _ found''),
      .inr ⟨⟨confined.plan.2 _, fun _ => confined.outside rfl⟩, .inr rfl⟩⟩
  | unasked => cases moves; exact ⟨t, found, loose _ t found⟩
  | _ => cases moves

/-! ## A new task -/

theorem due_start (m : Machine I σ ε α) (plan : Plan I σ ε α) :
    (m.start plan).Due m.threads.length plan := by
  have found : (m.start plan).threads[m.threads.length]? =
      some ⟨plan, .fresh, .granted, none, false⟩ := List.getElem?_concat_length
  exact ⟨getElem?_scene_of_found found, wakeOf_of_found found⟩

theorem Due.exists_found (h : m.Due id p) :
    ∃ told, m.threads[id]? = some ⟨p, .fresh, .granted, told, false⟩ := by
  obtain ⟨found, called⟩ := h
  rw [getElem?_scene, Option.map_eq_some_iff] at found
  obtain ⟨⟨plan, point, wake, told, serial⟩, found, same⟩ := found
  cases same
  cases (wakeOf_of_found found).symm.trans called
  exact ⟨told, found⟩

/-- A new task is ready. -/
theorem Due.ready (h : m.Due id p) (steady : m.Steady) : id ∈ m.ready := by
  obtain ⟨told, found⟩ := h.exists_found
  exact steady.alert.booked.awake id _ nofun found nofun nofun

/-- A new task waits until it has its first turn or is cancelled. -/
theorem Step.due (goes : Step m move wrote last) (steady : m.Steady) (h : m.Due id p)
    (unturned : move ≠ .turn id) (uncancelled : move ≠ .cancel id) : last.Due id p := by
  obtain ⟨told, found⟩ := h.exists_found
  have same (threads : last.threads[id]? = m.threads[id]?) : last.Due id p :=
    ⟨getElem?_scene_of_found (threads.trans found), wakeOf_of_found (threads.trans found)⟩
  cases moves : move.task? with
  | none =>
    cases goes with
    | start => exact same (List.getElem?_append_left (List.getElem?_eq_some_iff.1 found).1)
    | cancel => exact same (m.getElem?_cancel_of_ne fun hid => uncancelled (hid ▸ rfl))
    | tell =>
      obtain ⟨t, found', -, -, wake⟩ := m.exists_tell _ _ found
      refine ⟨by rw [scene_of_core (m.core_tell _ _)]; exact h.found, ?_⟩
      exact (wakeOf_of_found found').trans (wake.resolve_right (by rintro ⟨⟨⟩, -⟩))
    | _ => cases moves
  | some w =>
    by_cases hid : id = w
    · subst hid
      cases goes with
      | turn => cases moves; exact absurd rfl unturned
      | nobody => exact same rfl
      | unready => exact h
      | reply found' => cases moves; cases found.symm.trans found'
      | delay found' => cases moves; cases found.symm.trans found'
      | unasked => exact h
      | _ => cases moves
    · -- another task runs, and wakes this one at most, which is awake
      obtain ⟨t, found', stays⟩ := goes.exists_stays steady moves hid found
      have found'' := getElem?_scene_of_found found'
      rcases goes.found_cases found'' with moves' | before | ⟨-, start, -⟩
      · exact absurd (Option.some.inj (moves'.symm.trans moves)) hid
      · refine ⟨found''.trans (before.symm.trans h.found), ?_⟩
        exact (wakeOf_of_found found').trans (stays.wake.resolve_right (by rintro ⟨⟨⟩, -⟩))
      · rw [start] at moves
        cases moves

/-- **A new task that asks nothing comes to its end in its first turn.** -/
theorem Due.turn (h : m.Due id p) (steady : m.Steady) (manned : m.Manned) (loose : m.Loose)
    (silent : p.Confined False False false) :
    ∃ u outcome, (m.move (.turn id)).scene[id]? = some u ∧ u.point = .ended outcome ∧
      ∀ respond, p.evaluate respond m.data = ((m.move (.turn id)).data, outcome) := by
  obtain ⟨told, found⟩ := h.exists_found
  have runs : m.move (.turn id) = (m.pick id).follow id false p := by
    rw [Machine.move, if_pos (h.ready steady), resume,
      show (m.pick id).threads[id]? = some _ from found]
    rfl
  have gate : (m.pick id).gate = ⟨false, []⟩ := steady.guarded.settled.gate
  obtain ⟨wrote, goes⟩ := (exists_stretch id gate p).1
  rw [← runs] at goes
  have sole : (m.pick id).Sole id false p := by
    have orderly : (m.pick id).Orderly none := steady.orderly.frame rfl rfl rfl
    have tally : Tally (m.pick id) (m.others id) none none :=
      (steady.guarded.tally.of_found h.found).congr rfl rfl rfl
    exact ⟨orderly.running_of_point h.found (by simp) (by simp), tally, manned,
      fun other u _ found => (loose other u found).clear⟩
  obtain ⟨u, found', halts⟩ := goes.halts sole h.found (by simp) silent
  obtain ⟨v, found'', confined⟩ := goes.confined h.found silent
  cases found'.symm.trans found''
  rcases halts with ⟨outcome, ended⟩ | suspended
  · exact ⟨u, outcome, found', ended, goes.evaluate_eq h.found silent found' ended⟩
  · cases (confined.outside suspended).1

end

end Machine

end SignedOrders.Tasks
