import SignedOrders.Proofs.Tasks.Stretch

/-!
# What a machine does in a move

A task that is resumed **wakes** to go on with some plan, or it goes on waiting: this is
its **turn**.  A **step** is what a machine does in a move.

Between moves nobody is at the gate, and each waiting task has a plan that starts with what
it waits for (`Settled`).  Then a machine moves by steps (`Settled.exists_step`), and the
same holds again (`Settled.step`).
-/

namespace SignedOrders.Tasks

variable {I : Interface} {σ ε α : Type}

/-- The task that may run in a move. -/
def Move.task? : Move I σ ε α → Option Nat
  | .turn id => some id
  | .reply id _ => some id
  | _ => none

namespace Machine

/-- A task no longer sleeps. -/
def rise (m : Machine I σ ε α) (id : Nat) : Machine I σ ε α :=
  { m with sleepers := m.sleepers.erase id }

/-- How a task goes on when it is resumed, having been taken from those that are ready. -/
inductive Wakes (id : Nat) (m : Machine I σ ε α) (t : Thread I σ ε α) :
    Machine I σ ε α → Bool → Plan I σ ε α → Prop where
  | fresh (point : t.point = .fresh) (called : t.wake = .granted) : Wakes id m t m false t.plan
  | again {mode} (point : t.point = .asleep mode) (called : t.wake = .granted)
      (free : (m.rise id).admits mode = true) :
      Wakes id m t ((m.rise id).take mode) true t.plan
  | withdraw {mode} (point : t.point = .asleep mode) (uncalled : t.wake ≠ .granted) :
      Wakes id m t ((m.rise id).withdraw mode) false (.finish .cancelled)
  | leave {mode told} (point : t.point = .inside mode)
      (called : told = if t.wake == .granted then t.told.getD .cancelled else .cancelled) :
      Wakes id m t ((m.untell id).release mode) false (t.plan.afterHold told)
  | answered {under} (point : t.point = .answered under 0) (called : t.wake = .granted) :
      Wakes id m t (m.handBack under) false t.plan
  | pass (point : t.point = .atTurnstile) (called : t.wake = .granted) :
      Wakes id m t (m.quitQueue .turnstile id) true t.plan
  | giveUp (point : t.point = .atTurnstile) (uncalled : t.wake ≠ .granted) :
      Wakes id m t (m.giveUp .turnstile id) false (.finish .cancelled)
  | drop (point : t.point = .fresh) : Wakes id m t m false (.finish .cancelled)
  | unanswered {under}
      (point : t.point = .asking under ∨ ∃ turns, t.point = .answered under turns) :
      Wakes id m t (m.handBack under) false (.finish .cancelled)

/-- What a resumed task does. -/
inductive Turn (id : Nat) (m : Machine I σ ε α) (t : Thread I σ ε α) :
    List Nat → Machine I σ ε α → Prop where
  | goes {m' held p wrote last} (wakes : Wakes id m t m' held p)
      (h : Stretch id m' held p wrote last) : Turn id m t wrote last
  | asleep {mode} (point : t.point = .asleep mode) (called : t.wake = .granted)
      (busy : (m.rise id).admits mode = false) :
      Turn id m t [] ((m.rise id).sleep id mode t.plan)
  | later {under turns} (point : t.point = .answered under (turns + 1))
      (called : t.wake = .granted) :
      Turn id m t [] (m.awaitAnswer id under turns t.plan)
  | ended {outcome} (point : t.point = .ended outcome) : Turn id m t [] m

/-- What a machine does in a move. -/
inductive Step (m : Machine I σ ε α) : Move I σ ε α → List Nat → Machine I σ ε α → Prop where
  | start {plan} : Step m (.start plan) [] (m.start plan)
  | turn {id t wrote last} (ready : id ∈ m.ready) (found : m.threads[id]? = some t)
      (h : Turn id (m.pick id) t wrote last) : Step m (.turn id) wrote last
  | nobody {id} (found : m.threads[id]? = none) : Step m (.turn id) [] (m.pick id)
  | unready {id} (unready : id ∉ m.ready) : Step m (.turn id) [] m
  | cancel {id} : Step m (.cancel id) [] (m.cancel id)
  | tell {id told} : Step m (.tell id told) [] (m.tell id told)
  | reply {id world under wanted question next told serial wrote last}
      (found : m.threads[id]? =
        some ⟨.ask wanted question next, .asking under, .pending, told, serial⟩)
      (now : world.turns question = 0)
      (h : Stretch id (m.handBack under) false (next (world.answer question)) wrote last) :
      Step m (.reply id world) wrote last
  | delay {id world under wanted question next told serial turns}
      (found : m.threads[id]? =
        some ⟨.ask wanted question next, .asking under, .pending, told, serial⟩)
      (later : world.turns question = turns + 1) :
      Step m (.reply id world) []
        (m.awaitAnswer id under turns (next (world.answer question)))
  | unasked {id world}
      (unasked : ∀ wanted question next under told serial, m.threads[id]? ≠
        some ⟨.ask wanted question next, .asking under, .pending, told, serial⟩) :
      Step m (.reply id world) [] m

/-- Nobody is at the gate, and each waiting task has a plan that starts with what it waits
for. -/
structure Settled (m : Machine I σ ε α) : Prop where
  gate : m.gate = ⟨false, []⟩
  placed : ∀ t ∈ m.scene, t.Placed

section

variable {m m' last : Machine I σ ε α} {id : Nat} {held : Bool} {p : Plan I σ ε α}
  {t : Thread I σ ε α} {new wrote : List Nat} {held' : Bool} {p' : Plan I σ ε α}

/-! ## A task that wakes -/

theorem Wakes.gate_eq (h : Wakes id m t m' held p) : m'.gate = m.gate := by
  cases h with
  | again => rename_i mode _ _ _; cases mode <;> rfl
  | withdraw => exact gate_withdraw ..
  | leave => exact gate_release ..
  | giveUp =>
    show (m.giveUp .turnstile id).frame.gate = m.frame.gate
    rw [frame_giveUp]
  | answered => exact gate_handBack ..
  | unanswered => exact gate_handBack ..
  | _ => rfl

theorem Wakes.others_eq (h : Wakes id m t m' held p) : m'.others id = m.others id := by
  cases h with
  | again => rename_i mode _ _ _; cases mode <;> rfl
  | withdraw =>
    unfold others
    rw [scene_withdraw]
    rfl
  | leave => exact (others_release ..).trans (others_untell ..)
  | giveUp =>
    unfold others
    rw [scene_giveUp]
  | answered => exact others_handBack ..
  | unanswered => exact others_handBack ..
  | _ => rfl

theorem Wakes.scene_eq (h : Wakes id m t m' held p) : m'.scene = m.scene := by
  cases h with
  | again => rename_i mode _ _ _; cases mode <;> rfl
  | withdraw => exact scene_withdraw ..
  | leave => exact (scene_release ..).trans (scene_untell ..)
  | giveUp => exact scene_giveUp ..
  | answered => exact scene_handBack ..
  | unanswered => exact scene_handBack ..
  | _ => rfl

/-- A task that has ended does not wake. -/
theorem Wakes.going (h : Wakes id m t m' held p) (outcome : Outcome ε α) :
    t.point ≠ .ended outcome := by
  intro ended
  cases h with
  | drop point => cases ended.symm.trans point
  | unanswered point =>
    rcases point with point | ⟨_, point⟩ <;> cases ended.symm.trans point
  | fresh point => cases ended.symm.trans point
  | again point => cases ended.symm.trans point
  | withdraw point => cases ended.symm.trans point
  | leave point => cases ended.symm.trans point
  | answered point => cases ended.symm.trans point
  | pass point => cases ended.symm.trans point
  | giveUp point => cases ended.symm.trans point

/-! ## What a move leaves -/

theorem settled_initial (data : σ) : (initial data : Machine I σ ε α).Settled :=
  ⟨rfl, fun _ ht => nomatch ht⟩

theorem Settled.of_core (h : m.Settled) (same : last.core = m.core) : last.Settled := by
  constructor
  · show last.core.gate = _
    rw [same]
    exact h.gate
  · show ∀ t ∈ last.core.threads, _
    rw [same]
    exact h.placed

theorem Settled.of_others (h : m.Settled) (gate : last.gate = m.gate)
    (others : last.others id = m.others id) (found : m.scene[id]? = some t)
    (moved : ∃ t, last.scene[id]? = some t ∧ t.Placed) : last.Settled := by
  obtain ⟨t', found', placed⟩ := moved
  refine ⟨gate.trans h.gate, fun u hu => ?_⟩
  rcases List.mem_cons.1 ((scene_perm found').mem_iff.2 hu) with rfl | hu
  · exact placed
  · rw [others] at hu
    exact h.placed u ((scene_perm found).mem_iff.1 (List.mem_cons_of_mem _ hu))

theorem Settled.handBack (h : m.Settled) (under : Option Mode) : (m.handBack under).Settled :=
  ⟨(m.gate_handBack under).trans h.gate, by rw [scene_handBack]; exact h.placed⟩

theorem Settled.stretch (h : m.Settled) (found : m.scene[id]? = some t)
    (goes : Stretch id m held p wrote last) : last.Settled :=
  h.of_others goes.gate_eq goes.others_eq found (goes.exists_placed found)

theorem Turn.gate_eq (goes : Turn id m t wrote last) : last.gate = m.gate := by
  cases goes with
  | goes wakes goes => exact goes.gate_eq.trans wakes.gate_eq
  | _ => rfl

theorem Turn.others_eq (goes : Turn id m t wrote last) : last.others id = m.others id := by
  cases goes with
  | goes wakes goes => exact goes.others_eq.trans wakes.others_eq
  | asleep => exact others_modify ..
  | later => exact others_modify ..
  | ended => rfl

theorem Turn.exists_placed (goes : Turn id m t wrote last) (found : m.scene[id]? = some t.still)
    (placed : t.Placed) : ∃ t, last.scene[id]? = some t ∧ t.Placed := by
  cases goes with
  | goes wakes goes =>
    rw [← wakes.scene_eq] at found
    exact goes.exists_placed found
  | @asleep mode point =>
    refine ⟨{ t.still with plan := t.plan, point := .asleep mode }, ?_, ?_⟩
    · rw [Machine.sleep, getElem?_scene_park]
      exact congrArg (Option.map _) found
    · unfold Thread.Placed at placed
      rwa [point] at placed
  | @later under turns =>
    refine ⟨{ t.still with plan := t.plan, point := .answered under turns }, ?_, trivial⟩
    rw [getElem?_scene_awaitAnswer, found]
    rfl
  | ended => exact ⟨_, found, placed⟩

theorem Settled.turn (h : m.Settled) (found : m.threads[id]? = some t)
    (goes : Turn id m t wrote last) : last.Settled :=
  h.of_others goes.gate_eq goes.others_eq (getElem?_scene_of_found found)
    (goes.exists_placed (getElem?_scene_of_found found) (h.placed t.still (mem_scene found)))

theorem Settled.step {move : Move I σ ε α} (h : m.Settled) (goes : Step m move wrote last) :
    last.Settled := by
  cases goes with
  | @start plan =>
    refine ⟨h.gate, ?_⟩
    intro t ht
    rw [scene_start, List.mem_append] at ht
    rcases ht with ht | ht
    · exact h.placed t ht
    · rw [List.mem_singleton.1 ht]
      trivial
  | @turn id _ _ _ _ found goes =>
    have h' : (m.pick id).Settled := h.of_core rfl
    exact h'.turn found goes
  | nobody => exact h.of_core rfl
  | unready => exact h
  | cancel => exact h.of_core (m.core_cancel _)
  | tell => exact h.of_core (m.core_tell _ _)
  | @reply _ _ under _ _ _ _ _ _ _ found _ goes =>
    exact (h.handBack under).stretch (getElem?_scene_handBack_of_found found under) goes
  | @delay id world under _ question next told serial turns found =>
    have found' := getElem?_scene_of_found found
    refine h.of_others rfl (others_modify ..) found'
      ⟨⟨next (world.answer question), .answered under turns, .pending, none, serial⟩, ?_,
        trivial⟩
    rw [getElem?_scene_awaitAnswer, found']
    rfl
  | unasked => exact h

/-- A task after a move has run in it, or stands as it stood, or has just started. -/
theorem Step.found_cases {move : Move I σ ε α} (goes : Step m move wrote last) {other : Nat}
    {u : Thread I σ ε α} (found : last.scene[other]? = some u) :
    move.task? = some other ∨ m.scene[other]? = some u ∨
      other = m.threads.length ∧ move = .start u.plan ∧
        u = ⟨u.plan, .fresh, .pending, none, false⟩ := by
  -- whoever does not run is among the others
  have stays {id : Nat} (others : last.others id = m.others id) (moves : move.task? = some id) :
      move.task? = some other ∨ m.scene[other]? = some u := by
    by_cases hid : other = id
    · exact .inl (hid ▸ moves)
    · exact .inr ((getElem?_of_others others hid).symm.trans found)
  cases goes with
  | start =>
    rw [getElem?_scene, Option.map_eq_some_iff] at found
    obtain ⟨t, found, rfl⟩ := found
    rcases found_start_cases found with before | ⟨rfl, rfl⟩
    · exact .inr (.inl (getElem?_scene_of_found before))
    · exact .inr (.inr ⟨rfl, rfl, rfl⟩)
  | turn _ _ goes => exact (stays goes.others_eq rfl).imp_right .inl
  | nobody => exact .inr (.inl found)
  | unready => exact .inr (.inl found)
  | cancel =>
    rw [scene_of_core (m.core_cancel _)] at found
    exact .inr (.inl found)
  | tell =>
    rw [scene_of_core (m.core_tell _ _)] at found
    exact .inr (.inl found)
  | reply _ _ goes =>
    exact (stays (goes.others_eq.trans (others_handBack ..)) rfl).imp_right .inl
  | delay => exact (stays (others_modify ..) rfl).imp_right .inl
  | unasked => exact .inr (.inl found)

theorem Goes.wrote_subset (goes : Goes id m held p new m' held' p') :
    ∀ writer ∈ new, writer = id := by
  cases goes with
  | exclusive => exact fun _ hwriter => List.mem_singleton.1 hwriter
  | _ => exact fun _ hwriter => nomatch hwriter

theorem Stretch.wrote_subset (goes : Stretch id m held p wrote last) :
    ∀ writer ∈ wrote, writer = id := by
  induction goes with
  | stop => exact fun _ hwriter => nomatch hwriter
  | go goes _ ih =>
    intro writer hwriter
    rcases List.mem_append.1 hwriter with first | later
    · exact goes.wrote_subset writer first
    · exact ih writer later

/-- Only the task that runs changes the data under the exclusive lock. -/
theorem Step.wrote_subset {move : Move I σ ε α} (goes : Step m move wrote last) :
    ∀ writer ∈ wrote, move.task? = some writer := by
  intro writer hwriter
  cases goes with
  | turn _ _ goes =>
    cases goes with
    | goes _ goes => rw [goes.wrote_subset writer hwriter]; rfl
    | _ => cases hwriter
  | reply _ _ goes => rw [goes.wrote_subset writer hwriter]; rfl
  | _ => cases hwriter

theorem length_of_others {u : Thread I σ ε α} (same : last.others id = m.others id)
    (found : m.scene[id]? = some t) (found' : last.scene[id]? = some u) :
    last.threads.length = m.threads.length := by
  have old := (List.getElem?_eq_some_iff.1 found).1
  have new := (List.getElem?_eq_some_iff.1 found').1
  have length := congrArg List.length same
  unfold others at length
  rw [List.length_eraseIdx_of_lt old, List.length_eraseIdx_of_lt new, length_scene,
    length_scene] at length
  rw [length_scene] at old new
  omega

/-- Only a start adds a task. -/
theorem Step.length_eq {move : Move I σ ε α} (goes : Step m move wrote last) (h : m.Settled)
    (starts : ∀ plan, move ≠ .start plan) : last.threads.length = m.threads.length := by
  have of_core (same : last.core = m.core) : last.threads.length = m.threads.length := by
    rw [← length_scene, ← length_scene, scene_of_core same]
  cases goes with
  | start => exact absurd rfl (starts _)
  | @turn id t _ _ _ found goes =>
    have found' := getElem?_scene_of_found found
    obtain ⟨u, found'', -⟩ := goes.exists_placed found' (h.placed t.still (mem_scene found))
    exact length_of_others (m := m) goes.others_eq found' found''
  | nobody => rfl
  | unready => rfl
  | cancel => exact of_core (m.core_cancel _)
  | tell => exact of_core (m.core_tell _ _)
  | @reply _ _ under _ _ _ _ _ _ _ found _ goes =>
    obtain ⟨u, found', -⟩ :=
      goes.exists_placed (getElem?_scene_handBack_of_found found under)
    exact length_of_others (goes.others_eq.trans (others_handBack ..))
      (getElem?_scene_of_found found) found'
  | delay => exact length_modify ..
  | unasked => rfl

/-! ## A machine does in a move what a step says -/

/-- **A resumed task does what a turn says** in a settled machine. -/
theorem Settled.exists_turn (h : m.Settled) (found : m.threads[id]? = some t) :
    ∃ wrote, Turn id m t wrote (m.resume id) := by
  have placed : t.Placed := h.placed t.still (mem_scene found)
  unfold Thread.Placed at placed
  have uncalled : (t.wake == .granted) = false → t.wake ≠ .granted := by
    intro h
    exact ne_of_beq_false h
  -- a task that was cancelled ends at once
  have cancelled {m' : Machine I σ ε α} (wakes : Wakes id m t m' false (.finish .cancelled)) :
      ∃ wrote, Turn id m t wrote (m'.retire id .cancelled) :=
    ⟨[], .goes wakes (.stop .finish)⟩
  rw [resume, found]
  dsimp only
  cases point : t.point with
  | fresh =>
    dsimp only
    cases called : t.wake == .granted with
    | true =>
      obtain ⟨wrote, goes⟩ := (exists_stretch id h.gate t.plan).1
      exact ⟨wrote, .goes (.fresh point (eq_of_beq called)) goes⟩
    | false => exact cancelled (.drop point)
  | atGate => rw [point] at placed; exact placed.elim
  | asleep mode =>
    rw [point] at placed
    dsimp only at placed ⊢
    show ∃ wrote, Turn id m t wrote ((m.rise id).goBack mode id (!(t.wake == .granted)) t.plan)
    rw [goBack_eq (m := m.rise id) id mode h.gate]
    cases called : t.wake == .granted with
    | true =>
      simp only [Bool.not_true, Bool.false_eq_true, if_false]
      cases admitted : (m.rise id).admits mode with
      | true =>
        have free : ((m.rise id).take mode).gate = ⟨false, []⟩ := by
          cases mode <;> exact h.gate
        obtain ⟨wrote, goes⟩ := (exists_stretch id free t.plan).2 (.inl ⟨mode, placed⟩)
        exact ⟨wrote, .goes (.again point (eq_of_beq called) admitted) goes⟩
      | false => exact ⟨[], .asleep point (eq_of_beq called) admitted⟩
    | false => exact cancelled (.withdraw point (uncalled called))
  | returning => rw [point] at placed; exact placed.elim
  | inside mode =>
    dsimp only
    have free : ((m.untell id).release mode).gate = ⟨false, []⟩ :=
      ((m.untell id).gate_release mode).trans h.gate
    rw [departWith, letGo_eq (m := m.untell id) id mode h.gate]
    obtain ⟨wrote, goes⟩ := (exists_stretch id free _).1
    exact ⟨wrote, .goes (.leave point rfl) goes⟩
  | leaving => rw [point] at placed; exact placed.elim
  | asking under =>
    dsimp only
    rw [goOn_eq id h.gate]
    exact cancelled (.unanswered (.inl point))
  | answered under turns =>
    dsimp only
    cases called : t.wake == .granted with
    | true =>
      cases turns with
      | zero =>
        obtain ⟨wrote, goes⟩ := (exists_stretch id (h.handBack under).gate t.plan).1
        rw [← goOn_eq id h.gate] at goes
        exact ⟨wrote, .goes (.answered point (eq_of_beq called)) goes⟩
      | succ turns => exact ⟨[], .later point (eq_of_beq called)⟩
    | false =>
      rw [if_neg Bool.false_ne_true, goOn_eq id h.gate]
      exact cancelled (.unanswered (.inr ⟨turns, point⟩))
  | atTurnstile =>
    rw [point] at placed
    dsimp only at placed ⊢
    cases called : t.wake == .granted with
    | true =>
      have free : (m.quitQueue .turnstile id).gate = ⟨false, []⟩ := h.gate
      obtain ⟨wrote, goes⟩ := (exists_stretch id free t.plan).2 (.inr placed)
      exact ⟨wrote, .goes (.pass point (eq_of_beq called)) goes⟩
    | false => exact cancelled (.giveUp point (uncalled called))
  | ended outcome => exact ⟨[], .ended point⟩

/-- **A settled machine does what a step says.** -/
theorem Settled.exists_step (h : m.Settled) (move : Move I σ ε α) :
    ∃ wrote, Step m move wrote (m.move move) := by
  cases move with
  | start plan => exact ⟨[], .start⟩
  | turn id =>
    rw [Machine.move]
    by_cases ready : id ∈ m.ready
    · rw [if_pos ready]
      cases found : m.threads[id]? with
      | none =>
        have same : (m.pick id).resume id = m.pick id := by
          rw [resume, show (m.pick id).threads[id]? = none from found]
        rw [same]
        exact ⟨[], .nobody found⟩
      | some t =>
        have h' : (m.pick id).Settled := h.of_core rfl
        obtain ⟨wrote, goes⟩ := h'.exists_turn found
        exact ⟨wrote, .turn ready found goes⟩
    · rw [if_neg ready]
      exact ⟨[], .unready ready⟩
  | cancel id => exact ⟨[], .cancel⟩
  | tell id told => exact ⟨[], .tell⟩
  | reply id world =>
    rw [Machine.move, reply]
    split
    · rename_i question next under _ _ found
      dsimp only
      cases turns : world.turns question with
      | zero =>
        obtain ⟨wrote, goes⟩ :=
          (exists_stretch id (h.handBack under).gate (next (world.answer question))).1
        rw [← goOn_eq id h.gate] at goes
        exact ⟨wrote, .reply found turns goes⟩
      | succ turns' => exact ⟨[], .delay found turns⟩
    · rename_i unasked
      exact ⟨[], .unasked unasked⟩

theorem Settled.move (h : m.Settled) (move : Move I σ ε α) : (m.move move).Settled := by
  obtain ⟨wrote, goes⟩ := h.exists_step move
  exact h.step goes

end

end Machine

end SignedOrders.Tasks
