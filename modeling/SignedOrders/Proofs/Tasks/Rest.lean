import SignedOrders.Proofs.Tasks.Alert

/-!
# When all tasks have ended

The lock counts nobody when all tasks have ended, and nobody sleeps or waits at a door: tasks
give back what they have taken, however they end.  The turnstile is occupied only while a task
is in it (`Manned`), and every task leaves it at its end.

So nothing is left of tasks that have ended but what they have done to the data
(`Steady.unlocked`).
-/

namespace SignedOrders.Tasks

variable {I : Interface} {σ ε α : Type}

namespace Machine

/-- Nobody has or wants the lock, and nobody is in a door or waits at one. -/
structure Unlocked (m : Machine I σ ε α) : Prop where
  readers : m.readers = 0
  writing : m.writing = false
  writersWaiting : m.writersWaiting = 0
  sleepers : m.sleepers = []
  gate : m.gate = ⟨false, []⟩
  turnstile : m.turnstile = ⟨false, []⟩

/-- The task is in the turnstile, and has not ended. -/
structure Passes (t : Thread I σ ε α) : Prop where
  inside : t.serial = true
  going : ∀ outcome, t.point ≠ .ended outcome

/-- The turnstile is occupied only while a task is in it. -/
def Manned (m : Machine I σ ε α) : Prop :=
  m.turnstile.occupied = true →
    ∃ (id : Nat) (t : Thread I σ ε α), m.scene[id]? = some t ∧ Passes t

section

variable {m m' last : Machine I σ ε α} {id : Nat} {held held' : Bool} {p p' : Plan I σ ε α}
  {t : Thread I σ ε α} {new wrote : List Nat} {move : Move I σ ε α}

/-! ## Who is in the turnstile -/

theorem Manned.congr (h : m.Manned) (scene : last.scene = m.scene)
    (turnstile : last.turnstile.occupied = m.turnstile.occupied) : last.Manned := by
  unfold Manned
  rw [scene, turnstile]
  exact h

theorem Manned.of_core (h : m.Manned) (same : last.core = m.core) : last.Manned :=
  h.congr (scene_of_core same) (by rw [turnstile_of_core same])

/-- A task may move as long as it stays in the turnstile. -/
theorem Manned.of_others (h : m.Manned)
    (turnstile : last.turnstile.occupied = m.turnstile.occupied)
    (others : last.others id = m.others id) (found : m.scene[id]? = some t)
    (stays : ∃ u, last.scene[id]? = some u ∧ (Passes t → Passes u)) : last.Manned := by
  intro occupied
  rw [turnstile] at occupied
  obtain ⟨other, v, found', passes⟩ := h occupied
  by_cases hid : other = id
  · subst hid
    cases found.symm.trans found'
    obtain ⟨u, found'', kept⟩ := stays
    exact ⟨other, u, found'', kept passes⟩
  · exact ⟨other, v, (getElem?_of_others others hid).trans found', passes⟩

theorem Manned.park (h : m.Manned) (found : m.scene[id]? = some t) {point : Point ε α}
    (going : ∀ outcome, point ≠ .ended outcome) (plan : Plan I σ ε α) :
    (m.park id point plan).Manned :=
  h.of_others rfl (others_modify ..) found
    ⟨_, (m.getElem?_scene_park id point plan).trans (congrArg _ found),
      fun passes => ⟨passes.inside, going⟩⟩

theorem Manned.sleep (h : m.Manned) (found : m.scene[id]? = some t) (mode : Mode)
    (plan : Plan I σ ε α) : (m.sleep id mode plan).Manned :=
  Manned.park (m := { m with sleepers := m.sleepers ++ [id] }) h found (by rintro _ ⟨⟩) plan

theorem Manned.awaitAnswer (h : m.Manned) (found : m.scene[id]? = some t)
    (under : Option Mode) (turns : Nat) (plan : Plan I σ ε α) :
    (m.awaitAnswer id under turns plan).Manned :=
  h.of_others rfl (others_modify ..) found
    ⟨_, (m.getElem?_scene_awaitAnswer id under turns plan).trans (congrArg _ found),
      fun passes => ⟨passes.inside, by rintro _ ⟨⟩⟩⟩

theorem Manned.release (h : m.Manned) (mode : Mode) : (m.release mode).Manned :=
  h.congr (scene_release ..) (by rw [turnstile_release])

theorem Manned.handBack (h : m.Manned) (under : Option Mode) : (m.handBack under).Manned := by
  cases under with
  | none => exact h
  | some mode => exact h.release mode

theorem turnstile_callNext (m : Machine I σ ε α) :
    (m.callNext .turnstile).turnstile = m.turnstile :=
  turnstile_of_core (m.core_callNext .turnstile)

theorem occupied_giveUp (m : Machine I σ ε α) (id : Nat) :
    (m.giveUp .turnstile id).turnstile.occupied = m.turnstile.occupied := by
  unfold Machine.giveUp
  dsimp only
  split
  · rfl
  · rw [turnstile_callNext]
    rfl

/-- A task that ends frees the turnstile if it was in it. -/
theorem Manned.retire (h : m.Manned) (found : m.threads[id]? = some t) (outcome : Outcome ε α) :
    (m.retire id outcome).Manned := by
  have found' := getElem?_scene_of_found found
  cases inside : t.serial with
  | true =>
    have vacated : (m.vacate id).turnstile.occupied = false := by
      rw [vacate, found, Option.map_some, Option.getD_some, inside, if_pos rfl, leaveDoor,
        turnstile_callNext]
      rfl
    intro occupied
    cases vacated.symm.trans occupied
  | false =>
    have kept : m.vacate id = m := by
      rw [vacate, found, Option.map_some, Option.getD_some, inside]
      rfl
    refine h.of_others ?_ (m.others_retire id outcome) found'
      ⟨_, (m.getElem?_scene_retire id outcome).trans (congrArg _ found'), fun passes => ?_⟩
    · show (m.vacate id).turnstile.occupied = _
      rw [kept]
    · cases inside.symm.trans passes.inside

theorem Goes.manned (h : Goes id m held p new m' held' p') (manned : m.Manned)
    (found : m.scene[id]? = some t) (going : ∀ outcome, t.point ≠ .ended outcome) :
    m'.Manned := by
  cases h with
  | @take mode => cases mode <;> exact manned
  | relinquish => exact manned.release _
  | shared => exact manned.release _
  | @exclusive _ data =>
    have changed : Manned { m with data } := manned
    exact changed.release _
  | refused => exact manned.release _
  | hold =>
    have untold : ((m.report id .acquired).untell id).Manned := manned.congr (scene_untell ..) rfl
    exact untold.release _
  | serial => exact fun _ => ⟨id, _, (scene_serial m id).trans (congrArg _ found), rfl, going⟩
  | _ => exact manned

theorem Stops.manned (h : Stops id m held p last) (manned : m.Manned)
    (found : m.threads[id]? = some t) : last.Manned := by
  have found' := getElem?_scene_of_found found
  cases h with
  | finish => exact manned.retire found _
  | ask => exact manned.park found' (by rintro _ ⟨⟩) _
  | @sleep mode =>
    have arrived : (m.arrive mode).Manned := by cases mode <;> exact manned
    have same : (m.arrive mode).scene[id]? = some t.still := by cases mode <;> exact found'
    exact arrived.sleep same mode _
  | hold => exact Manned.park (m := m.report id .acquired) manned found' (by rintro _ ⟨⟩) _
  | queue => exact Manned.park (m := m.joinQueue .turnstile id) manned found' (by rintro _ ⟨⟩) _

theorem Stretch.manned (h : Stretch id m held p wrote last) (manned : m.Manned)
    (found : m.scene[id]? = some t) (going : ∀ outcome, t.point ≠ .ended outcome) :
    last.Manned := by
  induction h generalizing t with
  | stop h =>
    rw [getElem?_scene, Option.map_eq_some_iff] at found
    obtain ⟨u, found, -⟩ := found
    exact h.manned manned found
  | go h _ ih =>
    obtain ⟨serial, found'⟩ := h.exists_found found
    exact ih (h.manned manned found going) found' going

theorem Wakes.manned (h : Wakes id m t m' held p) (manned : m.Manned) : m'.Manned := by
  cases h with
  | @again mode => cases mode <;> exact manned
  | withdraw => exact manned.congr (scene_withdraw ..) (by rw [turnstile_withdraw]; rfl)
  | leave => exact Manned.release (manned.congr (scene_untell ..) rfl) _
  | giveUp => exact manned.congr (scene_giveUp ..) (m.occupied_giveUp id)
  | answered => exact manned.handBack _
  | unanswered => exact manned.handBack _
  | _ => exact manned

theorem Turn.manned (h : Turn id m t wrote last) (manned : m.Manned)
    (found : m.scene[id]? = some t.still) : last.Manned := by
  cases h with
  | goes wakes goes =>
    have found' := found
    rw [← wakes.scene_eq] at found'
    exact goes.manned (wakes.manned manned) found' wakes.going
  | asleep => exact Manned.sleep (m := m.rise id) manned found _ _
  | later => exact manned.awaitAnswer found _ _ _
  | ended => exact manned

/-- **A move leaves the turnstile occupied only if a task is in it.** -/
theorem Step.manned (h : Step m move wrote last) (manned : m.Manned) : last.Manned := by
  cases h with
  | start =>
    intro occupied
    obtain ⟨other, t, found, passes⟩ := manned occupied
    refine ⟨other, t, ?_, passes⟩
    rw [scene_start]
    exact (List.getElem?_append_left (List.getElem?_eq_some_iff.1 found).1).trans found
  | turn _ found goes =>
    exact goes.manned (m := m.pick _) manned (getElem?_scene_of_found found)
  | nobody => exact manned
  | unready => exact manned
  | cancel => exact manned.of_core (m.core_cancel _)
  | tell => exact manned.of_core (m.core_tell _ _)
  | reply found _ goes =>
    exact goes.manned (manned.handBack _) (getElem?_scene_handBack_of_found found _)
      (by rintro _ ⟨⟩)
  | delay found => exact manned.awaitAnswer (getElem?_scene_of_found found) _ _ _
  | unasked => exact manned

theorem manned_initial (data : σ) : (initial data : Machine I σ ε α).Manned := by
  rintro ⟨⟩

/-! ## All tasks have ended -/

/-- The lock is not in use when nobody holds it or waits for it. -/
theorem Tally.unused {l : List (Thread I σ ε α)} (h : Tally m l none none)
    (held : ∀ t ∈ l, t.point.held? = none) (sought : ∀ t ∈ l, t.point.sought? = none) :
    m.readers = 0 ∧ m.writing = false ∧ m.writersWaiting = 0 := by
  have holds (mode : Mode) : insiders l none mode = 0 := by
    refine Nat.add_eq_zero_iff.2 ⟨List.countP_eq_zero.2 fun t ht => ?_, rfl⟩
    simp [held t ht]
  have seeks : seekers l .exclusive = 0 :=
    List.countP_eq_zero.2 fun t ht => by simp [sought t ht]
  obtain ⟨readers, writers, -, waiting⟩ := h
  rw [holds] at readers writers
  rw [seeks] at waiting
  refine ⟨readers, ?_, by simpa using waiting⟩
  by_contra writing
  simp [writing] at writers

/-- Nobody waits at the turnstile if no task stands there. -/
theorem Orderly.queue_eq_nil {runs : Option Nat} (h : m.Orderly runs)
    (away : ∀ (id : Nat) t, runs ≠ some id → m.scene[id]? = some t → t.point ≠ .atTurnstile) :
    m.turnstile.queue = [] := by
  refine List.eq_nil_iff_forall_not_mem.2 fun id waits => ?_
  obtain ⟨hne, t, found, door⟩ := h.queued id waits
  exact away id t hne found door

/-- The turnstile is free if no task is in it. -/
theorem Manned.free (h : m.Manned)
    (outside : ∀ (id : Nat) t, m.scene[id]? = some t → ¬ Passes t) :
    m.turnstile.occupied = false := by
  by_contra occupied
  obtain ⟨id, t, found, passes⟩ := h (by simpa using occupied)
  exact outside id t found passes

/-- **When all tasks have ended, the lock is free.** -/
theorem Steady.unlocked (h : m.Steady) (manned : m.Manned)
    (ended : ∀ (id : Nat) t, m.scene[id]? = some t → ∃ outcome, t.point = .ended outcome) :
    m.Unlocked := by
  have finished : ∀ t ∈ m.scene, ∃ outcome, t.point = .ended outcome := fun t ht => by
    obtain ⟨id, found⟩ := List.mem_iff_getElem?.1 ht
    exact ended id t found
  obtain ⟨readers, writing, waiting⟩ := h.guarded.tally.unused
    (fun t ht => by obtain ⟨outcome, point⟩ := finished t ht; rw [point]; rfl)
    (fun t ht => by obtain ⟨outcome, point⟩ := finished t ht; rw [point]; rfl)
  constructor
  case readers => exact readers
  case writing => exact writing
  case writersWaiting => exact waiting
  case sleepers =>
    refine List.eq_nil_iff_forall_not_mem.2 fun id sleeps => ?_
    obtain ⟨-, t, mode, found, asleep⟩ := h.orderly.asleep id sleeps
    obtain ⟨outcome, point⟩ := ended id t found
    cases asleep.symm.trans point
  case gate => exact h.guarded.settled.gate
  case turnstile =>
    have queue : m.turnstile.queue = [] := by
      refine h.orderly.queue_eq_nil fun id t _ found door => ?_
      obtain ⟨outcome, point⟩ := ended id t found
      cases door.symm.trans point
    have free : m.turnstile.occupied = false := by
      refine manned.free fun id t found passes => ?_
      obtain ⟨outcome, point⟩ := ended id t found
      exact passes.going outcome point
    rw [show m.turnstile = ⟨m.turnstile.occupied, m.turnstile.queue⟩ from rfl, queue, free]

end

end Machine

end SignedOrders.Tasks
