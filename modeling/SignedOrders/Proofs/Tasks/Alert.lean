import SignedOrders.Proofs.Tasks.Awake
import SignedOrders.Proofs.Tasks.Lock

/-!
# Nobody sleeps on

A task that sleeps looks at the lock only when it has been woken, and the lock wakes its
sleepers only at some moments: when the last reader or a writer gives it back, and when a
writer that waits is cancelled.  These are enough: at every point of every run, a sleeper
that has not been woken would be refused if it looked (`Alert.refused`, `steady_after`).

Each change of the lock either admits nobody that was refused before (`admits_take`,
`admits_arrive`), or it comes with waking all sleepers (`Booked.awakenSleepers`).
-/

namespace SignedOrders.Tasks

variable {I : Interface} {σ ε α : Type}

namespace Machine

/-- A sleeper that has not been woken would be refused. -/
structure Alert (m : Machine I σ ε α) (runs : Option Nat) : Prop where
  booked : m.Booked runs
  refused : ∀ i t mode, runs ≠ some i → m.threads[i]? = some t → t.point = .asleep mode →
    t.wake = .pending → m.admits mode = false

section

variable {m m' last : Machine I σ ε α} {id i : Nat} {held held' : Bool}
  {p p' : Plan I σ ε α} {t t' : Thread I σ ε α} {new wrote : List Nat} {mode : Mode}

/-- A task that runs keeps the others refused unless it makes the lock admit them. -/
theorem Alert.stirs (h : m.Alert (some id)) (stirs : Stirs id m last)
    (admits : ∀ mode, m.admits mode = false → last.admits mode = false) :
    last.Alert (some id) := by
  refine ⟨stirs.booked h.booked, fun i t' mode waits found point pending => ?_⟩
  obtain ⟨t, found, stays⟩ := stirs.stays (runs_ne_iff.1 waits) found
  refine admits mode (h.refused i t mode waits found (stays.point.symm.trans point) ?_)
  rcases stays.wake with same | ⟨was, -⟩
  · rw [← same, pending]
  · exact was

/-! ## The lock wakes its sleepers -/

theorem wakeOf_awaken (m : Machine I σ ε α) (i j : Nat)
    (awake : m.wakeOf j ≠ .pending ∨ j = i) : (m.awaken i).wakeOf j ≠ .pending := by
  rw [wakeOf, getElem?_awaken]
  cases found : m.threads[j]? with
  | none => rintro ⟨⟩
  | some t =>
    rw [wakeOf_of_found found] at awake
    rw [Option.map_some, Option.map_some, Option.getD_some]
    split
    · exact t.wake_rouse
    · next other => exact awake.resolve_right other

theorem wakeOf_foldl_awaken {ids : List Nat} (awake : m.wakeOf i ≠ .pending ∨ i ∈ ids) :
    (ids.foldl Machine.awaken m).wakeOf i ≠ .pending := by
  induction ids generalizing m with
  | nil => exact awake.resolve_right List.not_mem_nil
  | cons j ids ih =>
    refine ih ?_
    rcases awake with awake | mem
    · exact .inl (m.wakeOf_awaken j i (.inl awake))
    · rcases List.mem_cons.1 mem with rfl | later
      · exact .inl (m.wakeOf_awaken i i (.inr rfl))
      · exact .inr later

theorem stirs_foldl_awaken {ids : List Nat} (others : ∀ i ∈ ids, i ≠ id) :
    Stirs id m (ids.foldl Machine.awaken m) := by
  induction ids generalizing m with
  | nil => exact .refl
  | cons i ids ih =>
    have first : Stirs id m (m.awaken i) := .awaken .refl (others i List.mem_cons_self)
    exact first.trans (ih fun j hj => others j (List.mem_cons_of_mem _ hj))

/-- When all sleepers have been woken, nobody is left to be refused. -/
theorem Booked.awakenSleepers (h : m.Booked (some id)) (others : ∀ i ∈ m.sleepers, i ≠ id) :
    m.awakenSleepers.Alert (some id) := by
  have booked : m.awakenSleepers.Booked (some id) := (stirs_foldl_awaken others).booked h
  refine ⟨booked, fun i t mode waits found point pending => ?_⟩
  -- who sleeps is on the list, and all on the list are awake by now
  have listed := booked.listed i t mode waits found point
  rw [sleepers_of_core m.core_awakenSleepers] at listed
  exact absurd ((wakeOf_of_found found).trans pending) (wakeOf_foldl_awaken (.inr listed))

theorem admits_of_frame (same : last.frame = m.frame) : last.admits mode = m.admits mode := by
  show last.frame.admits mode = m.frame.admits mode
  rw [same]

/-- The lock is given back. -/
theorem Alert.release (h : m.Alert (some id)) (others : ∀ i ∈ m.sleepers, i ≠ id) (mode : Mode) :
    (m.release mode).Alert (some id) := by
  cases mode with
  | shared =>
    have booked : Booked { m with readers := m.readers - 1 } (some id) :=
      h.booked.congr rfl rfl fun _ _ hi => hi
    unfold Machine.release
    dsimp only
    -- the last reader wakes all; while others remain, a writer is refused as before
    split
    · exact booked.awakenSleepers others
    · next remain =>
      refine ⟨booked, fun i t mode waits found point pending => ?_⟩
      have refused := h.refused i t mode waits found point pending
      cases mode with
      | shared => exact refused
      | exclusive => simpa [admits] using fun _ => remain
  | exclusive =>
    have booked : Booked { m with writing := false } (some id) :=
      h.booked.congr rfl rfl fun _ _ hi => hi
    exact booked.awakenSleepers others

theorem Alert.handBack (h : m.Alert (some id)) (others : ∀ i ∈ m.sleepers, i ≠ id)
    (under : Option Mode) : (m.handBack under).Alert (some id) := by
  cases under with
  | none => exact h
  | some mode => exact h.release others mode

/-- A task no longer wants the lock. -/
theorem Alert.withdraw (h : m.Alert (some id)) (others : ∀ i ∈ m.sleepers, i ≠ id) (mode : Mode) :
    (m.withdraw mode).Alert (some id) := by
  cases mode with
  | shared => exact h
  | exclusive =>
    have booked : Booked { m with writersWaiting := m.writersWaiting - 1 } (some id) :=
      h.booked.congr rfl rfl fun _ _ hi => hi
    exact booked.awakenSleepers others

theorem stirs_release (others : ∀ i ∈ m.sleepers, i ≠ id) (mode : Mode) :
    Stirs id m (m.release mode) := by
  cases mode with
  | shared =>
    have counted : Stirs id m { m with readers := m.readers - 1 } := stirs_lists rfl rfl rfl
    unfold Machine.release
    dsimp only
    split
    · exact counted.trans (stirs_foldl_awaken others)
    · exact counted
  | exclusive =>
    have counted : Stirs id m { m with writing := false } := stirs_lists rfl rfl rfl
    exact counted.trans (stirs_foldl_awaken others)

theorem stirs_handBack (others : ∀ i ∈ m.sleepers, i ≠ id) (under : Option Mode) :
    Stirs id m (m.handBack under) := by
  cases under with
  | none => exact .refl
  | some mode => exact stirs_release others mode

theorem stirs_withdraw (others : ∀ i ∈ m.sleepers, i ≠ id) (mode : Mode) :
    Stirs id m (m.withdraw mode) := by
  cases mode with
  | shared => exact .refl
  | exclusive =>
    have counted : Stirs id m { m with writersWaiting := m.writersWaiting - 1 } :=
      stirs_lists rfl rfl rfl
    exact counted.trans (stirs_foldl_awaken others)

/-- A task comes to take the lock.  Nobody is admitted who was not admitted before. -/
theorem admits_arrive (waiting : 0 ≤ m.writersWaiting) (mode other : Mode)
    (refused : m.admits other = false) : (m.arrive mode).admits other = false := by
  cases mode with
  | shared => exact refused
  | exclusive =>
    cases other with
    | exclusive => exact refused
    | shared =>
      have some_waits : m.writersWaiting + 1 ≠ 0 := by omega
      show (!m.writing && m.writersWaiting + 1 == 0) = false
      simp [some_waits]

/-- The lock is taken.  Nobody is admitted who was not admitted before. -/
theorem admits_take (readers : 0 ≤ m.readers) (mode other : Mode)
    (refused : m.admits other = false) : (m.take mode).admits other = false := by
  cases mode with
  | exclusive => cases other <;> rfl
  | shared =>
    cases other with
    | shared => exact refused
    | exclusive =>
      have some_reads : m.readers + 1 ≠ 0 := by omega
      show (!m.writing && m.readers + 1 == 0) = false
      simp [some_reads]

/-! ## The turnstile -/

theorem stirs_callNext (others : ∀ i ∈ m.turnstile.queue, i ≠ id) :
    Stirs id m (m.callNext .turnstile) := by
  unfold callNext passage
  dsimp only
  cases queue : m.turnstile.queue with
  | nil => exact .refl
  | cons first rest => exact .awaken .refl (others first (queue ▸ List.mem_cons_self))

theorem stirs_vacate (others : ∀ i ∈ m.turnstile.queue, i ≠ id) : Stirs id m (m.vacate id) := by
  unfold vacate
  split
  · have left : Stirs id m (m.setPassage .turnstile ⟨false, m.turnstile.queue⟩) :=
      stirs_lists rfl rfl rfl
    exact left.trans (stirs_callNext others)
  · exact .refl

theorem stirs_giveUp (others : ∀ i ∈ m.turnstile.queue.erase id, i ≠ id) :
    Stirs id m (m.giveUp .turnstile id) := by
  have quit : Stirs id m (m.quitQueue .turnstile id) := stirs_lists rfl rfl rfl
  unfold giveUp
  dsimp only
  split
  · exact quit
  · exact quit.trans (stirs_callNext others)

/-! ## A task that stops -/

/-- A task that waits now is minded like the others. -/
theorem Alert.settle (h : m.Alert (some id))
    (waits : ∀ t, m.threads[id]? = some t → t.wake = .pending ∨ ∃ outcome, t.point = .ended outcome)
    (sleeps : ∀ t mode, m.threads[id]? = some t → t.point = .asleep mode →
      id ∈ m.sleepers ∧ m.admits mode = false) : m.Alert none := by
  constructor
  case booked =>
    constructor
    · exact h.booked.nodup
    · exact fun i hi => ⟨nofun, (h.booked.ready i hi).2⟩
    · intro i t _ found awake going
      by_cases hid : i = id
      · subst hid
        rcases waits t found with pending | ⟨outcome, ended⟩
        · exact absurd pending awake
        · exact absurd ended (going outcome)
      · exact h.booked.awake i t (runs_ne_iff.2 hid) found awake going
    · intro i t mode _ found point
      by_cases hid : i = id
      · subst hid
        exact (sleeps t mode found point).1
      · exact h.booked.listed i t mode (runs_ne_iff.2 hid) found point
  case refused =>
    intro i t mode _ found point pending
    by_cases hid : i = id
    · subst hid
      exact (sleeps t mode found point).2
    · exact h.refused i t mode (runs_ne_iff.2 hid) found point pending

theorem Alert.park (h : m.Alert (some id)) (point : Point ε α) (plan : Plan I σ ε α)
    (sleeps : ∀ mode, point = .asleep mode → id ∈ m.sleepers ∧ m.admits mode = false) :
    (m.park id point plan).Alert none := by
  have own {t' : Thread I σ ε α} (found : (m.park id point plan).threads[id]? = some t') :
      t'.wake = .pending ∧ t'.point = point := by
    rw [Machine.park, getElem?_modify_self, Option.map_eq_some_iff] at found
    obtain ⟨t, -, rfl⟩ := found
    exact ⟨rfl, rfl⟩
  have parked : (m.park id point plan).Alert (some id) :=
    h.stirs (.own .refl _) fun _ refused => refused
  -- what is asked of the others now holds of the task itself as well
  refine parked.settle (fun t found => .inl (own found).1) fun t mode found asleep => ?_
  exact sleeps mode ((own found).2.symm.trans asleep)

/-- A task falls asleep that the lock does not admit. -/
theorem Alert.sleep (h : m.Alert (some id)) (busy : m.admits mode = false) (plan : Plan I σ ε α) :
    (m.sleep id mode plan).Alert none := by
  have listed : Alert { m with sleepers := m.sleepers ++ [id] } (some id) :=
    h.stirs (.frame .refl rfl rfl fun i _ hi => List.mem_append_left _ hi) fun _ refused => refused
  refine listed.park (.asleep mode) plan fun other same => ?_
  cases same
  exact ⟨List.mem_append_right _ (List.mem_singleton.2 rfl), busy⟩

theorem Alert.retire (h : m.Alert (some id)) (others : ∀ i ∈ m.turnstile.queue, i ≠ id)
    (outcome : Outcome ε α) : (m.retire id outcome).Alert none := by
  have stirs : Stirs id m (m.retire id outcome) :=
    .frame (.own (stirs_vacate others) _) rfl rfl fun _ _ hi => hi
  have own {t' : Thread I σ ε α} (found : (m.retire id outcome).threads[id]? = some t') :
      t'.point = .ended outcome := by
    have scene := getElem?_scene_of_found found
    rw [getElem?_scene_retire, Option.map_eq_some_iff] at scene
    obtain ⟨t, -, same⟩ := scene
    exact congrArg Thread.point same.symm
  have retired := h.stirs stirs fun mode refused =>
    (admits_of_frame (m.frame_retire id outcome)).trans refused
  refine retired.settle (fun t found => .inr ⟨outcome, own found⟩) fun t mode found asleep => ?_
  cases (own found).symm.trans asleep

/-- A task whose answer is on the way is ready. -/
theorem Booked.awaitAnswer (h : m.Booked (some id)) (found : m.threads[id]? = some t)
    (under : Option Mode) (turns : Nat) (plan : Plan I σ ε α) :
    (m.awaitAnswer id under turns plan).Booked none := by
  have others {i : Nat} (hid : i ≠ id) :
      (m.awaitAnswer id under turns plan).threads[i]? = m.threads[i]? :=
    m.getElem?_modify_of_ne hid _
  have own : (m.awaitAnswer id under turns plan).threads[id]? =
      some { t with plan, point := .answered under turns, wake := .granted } :=
    (m.getElem?_modify_self id _).trans (congrArg _ found)
  have away : id ∉ m.ready := fun hid => (h.ready id hid).1 rfl
  constructor
  case nodup =>
    refine List.nodup_append.2 ⟨h.nodup, List.nodup_singleton id, ?_⟩
    rintro i hi j hj rfl
    exact away (List.mem_singleton.1 hj ▸ hi)
  case ready =>
    intro i hi
    refine ⟨nofun, ?_⟩
    rcases List.mem_append.1 hi with hi | hi
    · have hid : i ≠ id := fun hid => away (hid ▸ hi)
      rw [others hid]
      exact (h.ready i hi).2
    · rw [List.mem_singleton.1 hi]
      exact ⟨_, own, nofun⟩
  case awake =>
    intro i u _ found awake going
    by_cases hid : i = id
    · exact List.mem_append_right _ (List.mem_singleton.2 hid)
    · rw [others hid] at found
      exact List.mem_append_left _ (h.awake i u (runs_ne_iff.2 hid) found awake going)
  case listed =>
    intro i u mode _ found point
    by_cases hid : i = id
    · subst hid
      cases own.symm.trans found
      cases point
    · rw [others hid] at found
      exact h.listed i u mode (runs_ne_iff.2 hid) found point

theorem Alert.awaitAnswer (h : m.Alert (some id)) (found : m.threads[id]? = some t)
    (under : Option Mode) (turns : Nat) (plan : Plan I σ ε α) :
    (m.awaitAnswer id under turns plan).Alert none := by
  refine ⟨h.booked.awaitAnswer found under turns plan, fun i u mode _ found' point pending => ?_⟩
  by_cases hid : i = id
  · subst hid
    rw [Machine.awaitAnswer, getElem?_modify_self, found] at found'
    cases found'
    cases point
  · have before := (m.getElem?_modify_of_ne hid _).symm.trans found'
    exact h.refused i u mode (runs_ne_iff.2 hid) before point pending

/-! ## A task that runs -/

theorem Tally.counts_nonneg {l : List (Thread I σ ε α)} {has seeks : Option Mode}
    (h : Tally m l has seeks) : 0 ≤ m.readers ∧ 0 ≤ m.writersWaiting := by
  rw [h.readers, h.writersWaiting]
  constructor
  · exact Int.natCast_nonneg _
  · split <;> omega

/-- Sleepers do not run. -/
theorem Orderly.sleepers_ne (h : m.Orderly (some id)) : ∀ i ∈ m.sleepers, i ≠ id :=
  fun i hi => runs_ne_iff.1 (h.asleep i hi).1

theorem Orderly.sleepers_ne_of_point (h : m.Orderly none) (found : m.threads[id]? = some t)
    (awake : ∀ mode, t.point ≠ .asleep mode) : ∀ i ∈ m.sleepers, i ≠ id := by
  rintro i sleeps rfl
  obtain ⟨-, u, mode, found', point⟩ := h.asleep i sleeps
  rw [← Option.some.inj ((getElem?_scene_of_found found).symm.trans found')] at point
  exact awake mode point

/-- Nor do those who wait at the turnstile. -/
theorem Orderly.queue_ne (h : m.Orderly (some id)) : ∀ i ∈ m.turnstile.queue, i ≠ id :=
  fun i hi => runs_ne_iff.1 (h.queued i hi).1

theorem Goes.stirs (h : Goes id m held p new m' held' p') (orderly : m.Orderly (some id)) :
    Stirs id m m' := by
  have others := orderly.sleepers_ne
  cases h with
  | peek => exact .refl
  | mark => exact stirs_lists rfl rfl rfl
  | relinquish => exact stirs_release others _
  | @take mode => exact (m.stirs_arrive id mode).trans (stirs_take _ id mode)
  | shared => exact stirs_release others _
  | @exclusive _ data =>
    have changed : Stirs id m { m with data } := stirs_lists rfl rfl rfl
    exact changed.trans (stirs_release (m := { m with data }) others _)
  | refused => exact stirs_release others _
  | hold =>
    have untold : Stirs id m ((m.report id .acquired).untell id) :=
      (m.stirs_report id .acquired).own _
    exact untold.trans (stirs_release (m := (m.report id .acquired).untell id) others _)
  | pass => exact .refl
  | serial =>
    have entered : Stirs id m (m.occupyDoor .turnstile) := stirs_lists rfl rfl rfl
    exact entered.own _

/-- **A step of a running task** keeps the others alert. -/
theorem Goes.alert (h : Goes id m held p new m' held' p') (orderly : m.Orderly (some id))
    (tally : Tally m (m.others id) (Machine.running held p) none) (alert : m.Alert (some id)) :
    m'.Alert (some id) := by
  have others := orderly.sleepers_ne
  have stirs := h.stirs orderly
  cases h with
  | peek => exact alert
  | mark => exact alert.stirs stirs fun _ refused => refused
  | relinquish => exact alert.release others _
  | @take mode =>
    -- the counts are not negative, so that one more refuses as many as before
    obtain ⟨readers, waiting⟩ := tally.counts_nonneg
    have nonneg : 0 ≤ (m.arrive mode).readers := by cases mode <;> exact readers
    refine alert.stirs stirs fun other refused => ?_
    exact admits_take nonneg mode other (admits_arrive waiting mode other refused)
  | shared => exact alert.release others _
  | @exclusive _ data =>
    have changed : Alert { m with data } (some id) :=
      alert.stirs (stirs_lists rfl rfl rfl) fun _ refused => refused
    exact changed.release others _
  | refused => exact alert.release others _
  | hold =>
    have untold : ((m.report id .acquired).untell id).Alert (some id) :=
      alert.stirs ((m.stirs_report id .acquired).own _) fun _ refused => refused
    exact untold.release others _
  | pass => exact alert
  | serial => exact alert.stirs stirs fun _ refused => refused

theorem Stops.stirs (h : Stops id m held p last) (orderly : m.Orderly (some id)) :
    Stirs id m last := by
  cases h with
  | finish => exact .frame ((stirs_vacate orderly.queue_ne).own _) rfl rfl fun _ _ hi => hi
  | ask => exact Stirs.refl.own _
  | @sleep mode =>
    have listed : Stirs id (m.arrive mode)
        { m.arrive mode with sleepers := (m.arrive mode).sleepers ++ [id] } :=
      .frame .refl rfl rfl fun _ _ hi => List.mem_append_left _ hi
    exact ((m.stirs_arrive id mode).trans listed).own _
  | hold => exact (m.stirs_report id .acquired).own _
  | queue =>
    have joined : Stirs id m (m.joinQueue .turnstile id) := stirs_lists rfl rfl rfl
    exact joined.own _

theorem Stops.alert (h : Stops id m held p last) (orderly : m.Orderly (some id))
    (tally : Tally m (m.others id) (Machine.running held p) none) (alert : m.Alert (some id)) :
    last.Alert none := by
  cases h with
  | finish => exact alert.retire orderly.queue_ne _
  | ask => exact alert.park _ _ nofun
  | @sleep mode p wants busy =>
    -- a writer that is refused counts as one that waits before it sleeps
    have nonneg := tally.counts_nonneg.2
    have arrived : (m.arrive mode).Alert (some id) :=
      alert.stirs (m.stirs_arrive id mode) fun other => admits_arrive nonneg mode other
    exact arrived.sleep (admits_arrive nonneg mode mode busy) p
  | hold =>
    have reported : (m.report id .acquired).Alert (some id) :=
      alert.stirs (m.stirs_report id .acquired) fun _ refused => refused
    exact reported.park _ _ nofun
  | queue =>
    have joined : (m.joinQueue .turnstile id).Alert (some id) :=
      alert.stirs (stirs_lists rfl rfl rfl) fun _ refused => refused
    exact joined.park _ _ nofun

theorem Stretch.stirs (h : Stretch id m held p wrote last) (running : m.Running id held p) :
    Stirs id m last := by
  induction h with
  | stop h => exact h.stirs running.orderly
  | go h _ ih => exact (h.stirs running.orderly).trans (ih (h.running running))

theorem Stretch.alert (h : Stretch id m held p wrote last) (running : m.Running id held p)
    (bracketed : p.Bracketed) (tally : Tally m (m.others id) (Machine.running held p) none)
    (alert : m.Alert (some id)) : last.Alert none := by
  induction h with
  | stop h => exact h.alert running.orderly tally alert
  | go h _ ih =>
    exact ih (h.running running) (h.bracketed bracketed) (h.tally bracketed tally)
      (h.alert running.orderly tally alert)

/-! ## A task that wakes -/

theorem stirs_rise (m : Machine I σ ε α) (id : Nat) : Stirs id m (m.rise id) :=
  .frame .refl rfl rfl fun _ other hi => (List.mem_erase_of_ne other).2 hi

theorem Wakes.stirs (h : Wakes id m t m' held p) (orderly : m.Orderly none)
    (found : m.threads[id]? = some t) : Stirs id m m' := by
  have found' := getElem?_scene_of_found found
  cases h with
  | @again mode => exact (m.stirs_rise id).trans (stirs_take _ id mode)
  | withdraw point =>
    exact (m.stirs_rise id).trans (stirs_withdraw (orderly.rise found' point).sleepers_ne _)
  | leave point =>
    have untold : Stirs id m (m.untell id) := Stirs.refl.own _
    have awake := orderly.sleepers_ne_of_point found (by simp [point])
    exact untold.trans (stirs_release (m := m.untell id) awake _)
  | answered point =>
    exact stirs_handBack (orderly.sleepers_ne_of_point found (by simp [point])) _
  | unanswered point =>
    refine stirs_handBack (orderly.sleepers_ne_of_point found ?_) _
    rcases point with point | ⟨turns, point⟩ <;> simp [point]
  | pass => exact stirs_lists rfl rfl rfl
  | giveUp => exact stirs_giveUp fun _ hi => (orderly.queue_nodup.mem_erase_iff.1 hi).1
  | _ => exact .refl

theorem Wakes.alert (h : Wakes id m t m' held p) (orderly : m.Orderly none)
    (found : m.threads[id]? = some t) (tally : Tally m m.scene none none)
    (alert : m.Alert (some id)) : m'.Alert (some id) := by
  have found' := getElem?_scene_of_found found
  have stirs := h.stirs orderly found
  have risen : (m.rise id).Alert (some id) := alert.stirs (m.stirs_rise id) fun _ refused => refused
  cases h with
  | @again mode =>
    exact risen.stirs (stirs_take _ id mode) fun other =>
      admits_take (m := m.rise id) tally.counts_nonneg.1 mode other
  | withdraw point => exact risen.withdraw (orderly.rise found' point).sleepers_ne _
  | leave point =>
    have untold : (m.untell id).Alert (some id) :=
      alert.stirs (Stirs.refl.own _) fun _ refused => refused
    exact untold.release (orderly.sleepers_ne_of_point found (by simp [point])) _
  | answered point =>
    exact alert.handBack (orderly.sleepers_ne_of_point found (by simp [point])) _
  | unanswered point =>
    refine alert.handBack (orderly.sleepers_ne_of_point found ?_) _
    rcases point with point | ⟨turns, point⟩ <;> simp [point]
  -- the turnstile is not part of what the lock looks at
  | pass => exact alert.stirs stirs fun _ refused => refused
  | giveUp =>
    exact alert.stirs stirs fun mode refused => (admits_of_frame (m.frame_giveUp id)).trans refused
  | _ => exact alert

theorem Turn.exists_stays {u : Thread I σ ε α} (h : Turn id m t wrote last)
    (orderly : m.Orderly none) (found : m.threads[id]? = some t) (placed : t.Placed)
    (other : i ≠ id) (found' : m.threads[i]? = some u) :
    ∃ u', last.threads[i]? = some u' ∧ u.Stays u' := by
  cases h with
  | goes wakes goes =>
    have running := wakes.running orderly found placed
    exact ((wakes.stirs orderly found).trans (goes.stirs running)).exists_stays other found'
  | asleep => exact ⟨u, (getElem?_modify_of_ne _ other _).trans found', .refl u⟩
  | later => exact ⟨u, (getElem?_modify_of_ne _ other _).trans found', .refl u⟩
  | ended => exact ⟨u, found', .refl u⟩

/-- **A turn leaves all sleepers alert.** -/
theorem Turn.alert (h : Turn id m t wrote last) (orderly : m.Orderly none)
    (found : m.threads[id]? = some t) (placed : t.Placed) (bracketed : t.plan.Bracketed)
    (tally : Tally m m.scene none none) (alert : m.Alert (some id)) : last.Alert none := by
  have found' := getElem?_scene_of_found found
  cases h with
  | goes wakes goes =>
    exact goes.alert (wakes.running orderly found placed) (wakes.bracketed bracketed)
      (wakes.tally placed found' tally) (wakes.alert orderly found tally alert)
  | asleep point called busy =>
    have risen : (m.rise id).Alert (some id) :=
      alert.stirs (m.stirs_rise id) fun _ refused => refused
    exact risen.sleep busy t.plan
  | later => exact alert.awaitAnswer found _ _ _
  | ended point =>
    refine alert.settle (fun u found'' => .inr ?_) fun u mode found'' asleep => ?_
    · exact ⟨_, Option.some.inj (found.symm.trans found'') ▸ point⟩
    · rw [← Option.some.inj (found.symm.trans found'')] at asleep
      cases point.symm.trans asleep

/-! ## A run -/

/-- A task is taken from those that are ready, to run. -/
theorem Alert.pick (h : m.Alert none) (id : Nat) : (m.pick id).Alert (some id) := by
  have picked {i : Nat} : i ∈ m.ready.erase id ↔ i ≠ id ∧ i ∈ m.ready :=
    h.booked.nodup.mem_erase_iff
  constructor
  case booked =>
    constructor
    · exact h.booked.nodup.erase id
    · intro i hi
      obtain ⟨other, before⟩ := picked.1 hi
      exact ⟨runs_ne_iff.2 other, (h.booked.ready i before).2⟩
    · intro i t waits found awake going
      exact picked.2 ⟨runs_ne_iff.1 waits, h.booked.awake i t nofun found awake going⟩
    · exact fun i t mode _ => h.booked.listed i t mode nofun
  case refused => exact fun i t mode _ => h.refused i t mode nofun

/-- A task that is not ready may run at once. -/
theorem Alert.leave (h : m.Alert none) (away : id ∉ m.ready) : m.Alert (some id) := by
  have picked := h.pick id
  rwa [Machine.pick, List.erase_of_not_mem away] at picked

theorem Booked.away (h : m.Booked none) (found : m.threads[id]? = some t)
    (pending : t.wake = .pending) : id ∉ m.ready := by
  intro hid
  obtain ⟨-, u, found', awake⟩ := h.ready id hid
  rw [Option.some.inj (found.symm.trans found')] at pending
  exact awake pending

theorem exists_of_modify {f : Thread I σ ε α → Thread I σ ε α} {u : Thread I σ ε α}
    (point : ∀ t, (f t).point = t.point)
    (wake : ∀ t, m.threads[id]? = some t → ((f t).wake = .pending ↔ t.wake = .pending))
    (found : (m.modify id f).threads[i]? = some u) :
    ∃ t, m.threads[i]? = some t ∧ u.point = t.point ∧ (u.wake = .pending ↔ t.wake = .pending) := by
  by_cases hid : i = id
  · subst hid
    rw [getElem?_modify_self, Option.map_eq_some_iff] at found
    obtain ⟨t, found, rfl⟩ := found
    exact ⟨t, found, point t, wake t found⟩
  · rw [getElem?_modify_of_ne _ hid] at found
    exact ⟨u, found, rfl, .rfl⟩

theorem Booked.modify_steady (h : m.Booked none) {f : Thread I σ ε α → Thread I σ ε α}
    (point : ∀ t, (f t).point = t.point)
    (wake : ∀ t, m.threads[id]? = some t → ((f t).wake = .pending ↔ t.wake = .pending)) :
    (m.modify id f).Booked none := by
  constructor
  case nodup => exact h.nodup
  case ready =>
    intro i hi
    obtain ⟨-, t, found, awake⟩ := h.ready i hi
    refine ⟨nofun, ?_⟩
    by_cases hid : i = id
    · subst hid
      exact ⟨f t, (m.getElem?_modify_self i f).trans (congrArg _ found),
        fun pending => awake ((wake t found).1 pending)⟩
    · exact ⟨t, (m.getElem?_modify_of_ne hid f).trans found, awake⟩
  case awake =>
    intro i u _ found awake going
    obtain ⟨t, found, same, wakes⟩ := exists_of_modify point wake found
    exact h.awake i t nofun found (fun pending => awake (wakes.2 pending))
      fun outcome ended => going outcome (same.trans ended)
  case listed =>
    intro i u mode _ found asleep
    obtain ⟨t, found, same, -⟩ := exists_of_modify point wake found
    exact h.listed i t mode nofun found (same.symm.trans asleep)

/-- How the waiting of a task stands is changed, or what it has been told, and not whether it
is awake. -/
theorem Alert.modify (h : m.Alert none) (id : Nat) {f : Thread I σ ε α → Thread I σ ε α}
    (point : ∀ t, (f t).point = t.point)
    (wake : ∀ t, m.threads[id]? = some t → ((f t).wake = .pending ↔ t.wake = .pending)) :
    (m.modify id f).Alert none := by
  refine ⟨h.booked.modify_steady point wake, fun i u mode _ found asleep pending => ?_⟩
  obtain ⟨t, found, same, wakes⟩ := exists_of_modify point wake found
  exact h.refused i t mode nofun found (same.symm.trans asleep) (wakes.1 pending)

theorem Alert.call (h : m.Alert none) (found : m.threads[i]? = some t)
    (pending : t.wake = .pending) {f : Thread I σ ε α → Thread I σ ε α}
    (point : (f t).point = t.point) (awake : (f t).wake ≠ .pending) :
    Alert { m.modify i f with ready := m.ready ++ [i] } none := by
  refine ⟨h.booked.call nofun found pending point awake, fun j u mode _ found' asleep sleeps => ?_⟩
  by_cases hji : j = i
  · subst hji
    have own : (m.modify j f).threads[j]? = some (f t) :=
      (m.getElem?_modify_self j f).trans (congrArg _ found)
    rw [← Option.some.inj (own.symm.trans found')] at sleeps
    exact absurd sleeps awake
  · exact h.refused j u mode nofun ((m.getElem?_modify_of_ne hji f).symm.trans found') asleep sleeps

theorem Alert.awaken (h : m.Alert none) (i : Nat) : (m.awaken i).Alert none := by
  unfold Machine.awaken
  split
  · next pending =>
    obtain ⟨t, found, pending⟩ := exists_of_wakeOf pending
    exact h.call found pending rfl nofun
  · exact h

theorem Alert.cancel (h : m.Alert none) (id : Nat) : (m.cancel id).Alert none := by
  unfold Machine.cancel
  split
  · exact h
  next t found =>
    split
    · exact h
    · next pending _ => exact h.call found pending rfl nofun
    · next granted _ =>
      refine h.modify id (fun _ => rfl) fun u found' => ?_
      rw [← Option.some.inj (found.symm.trans found'), granted]
      exact ⟨nofun, nofun⟩
    · exact h

theorem Alert.tell (h : m.Alert none) (id : Nat) (told : Outcome ε Unit) :
    (m.tell id told).Alert none := by
  have informed : (m.modify id fun t => { t with told := t.told.or (some told) }).Alert none :=
    h.modify id (fun _ => rfl) fun _ _ => .rfl
  unfold Machine.tell
  dsimp only
  split
  · exact informed.awaken id
  · exact informed

theorem Booked.start (h : m.Booked none) (plan : Plan I σ ε α) : (m.start plan).Booked none := by
  constructor
  case nodup =>
    refine List.nodup_append.2 ⟨h.nodup, List.nodup_singleton _, ?_⟩
    rintro i hi j hj rfl
    obtain ⟨-, t, found, -⟩ := h.ready i hi
    have present := (List.getElem?_eq_some_iff.1 found).1
    rw [List.mem_singleton.1 hj] at present
    exact absurd present (Nat.lt_irrefl _)
  case ready =>
    intro i hi
    refine ⟨nofun, ?_⟩
    rcases List.mem_append.1 hi with hi | hi
    · obtain ⟨-, t, found, awake⟩ := h.ready i hi
      exact ⟨t, getElem?_start_of_found found plan, awake⟩
    · rw [List.mem_singleton.1 hi]
      exact ⟨_, List.getElem?_concat_length, nofun⟩
  case awake =>
    intro i t _ found awake going
    rcases found_start_cases found with found | ⟨rfl, -⟩
    · exact List.mem_append_left _ (h.awake i t nofun found awake going)
    · exact List.mem_append_right _ (List.mem_singleton.2 rfl)
  case listed =>
    intro i t mode _ found asleep
    rcases found_start_cases found with found | ⟨-, rfl⟩
    · exact h.listed i t mode nofun found asleep
    · cases asleep

theorem Alert.start (h : m.Alert none) (plan : Plan I σ ε α) : (m.start plan).Alert none := by
  refine ⟨h.booked.start plan, fun i t mode _ found asleep pending => ?_⟩
  rcases found_start_cases found with found | ⟨-, rfl⟩
  · exact h.refused i t mode nofun found asleep pending
  · cases asleep

theorem alert_initial (data : σ) : (initial data : Machine I σ ε α).Alert none := by
  constructor
  · constructor
    · exact .nil
    · exact fun _ hi => nomatch hi
    · rintro i t - ⟨⟩
    · rintro i t mode - ⟨⟩
  · rintro i t mode - ⟨⟩

/-- **A move leaves all sleepers alert.** -/
theorem Alert.step {move : Move I σ ε α} (h : m.Alert none) (guarded : m.Guarded)
    (orderly : m.Orderly none) (goes : Step m move wrote last) : last.Alert none := by
  cases goes with
  | start => exact h.start _
  | @turn id t _ _ _ found goes =>
    have orderly : (m.pick id).Orderly none := orderly.frame rfl rfl rfl
    have placed := guarded.settled.placed t.still (mem_scene found)
    have bracketed := guarded.bracketed id t.still (getElem?_scene_of_found found)
    exact goes.alert orderly found placed bracketed (guarded.tally.congr rfl rfl rfl) (h.pick id)
  | @nobody id found =>
    refine (h.pick id).settle (fun t found' => ?_) fun t mode found' => ?_
    all_goals cases found.symm.trans found'
  | unready => exact h
  | cancel => exact h.cancel _
  | tell => exact h.tell _ _
  | @reply id world under _ question next _ _ _ _ found _ goes =>
    have found' := getElem?_scene_of_found found
    have running : m.Running id false (next (world.answer question)) :=
      orderly.running_of_point found' (by simp [Thread.still]) (by simp [Thread.still])
    have tally : Tally (m.handBack under) ((m.handBack under).others id) none none := by
      rw [others_handBack]
      exact Tally.handBack (guarded.tally.of_found found')
    have awake := orderly.sleepers_ne_of_point found (by rintro _ ⟨⟩)
    exact goes.alert (running.handBack under) (guarded.bracketed id _ found' (world.answer _))
      tally ((h.leave (h.booked.away found rfl)).handBack awake under)
  | delay found => exact (h.leave (h.booked.away found rfl)).awaitAnswer found _ _ _
  | unasked => exact h

/-- What holds between the moves of a run. -/
structure Steady (m : Machine I σ ε α) : Prop where
  guarded : m.Guarded
  orderly : m.Orderly none
  alert : m.Alert none

theorem Steady.step {move : Move I σ ε α} (h : m.Steady) (goes : Step m move wrote last)
    (given : ∀ plan, move = .start plan → plan.Bracketed) : last.Steady :=
  ⟨h.guarded.step goes given, h.orderly.step h.guarded.settled goes,
    h.alert.step h.guarded h.orderly goes⟩

theorem Steady.after (h : m.Steady) (moves : List (Move I σ ε α))
    (bracketed : ∀ plan, .start plan ∈ moves → plan.Bracketed) : (m.after moves).Steady := by
  induction moves generalizing m with
  | nil => exact h
  | cons move moves ih =>
    obtain ⟨wrote, goes⟩ := h.guarded.settled.exists_step move
    have next : (m.move move).Steady :=
      h.step goes fun plan same => bracketed plan (same ▸ List.mem_cons_self)
    exact ih next fun plan hplan => bracketed plan (List.mem_cons_of_mem _ hplan)

/-- **At every point of every run the sleepers are alert**: one that has not been woken would
be refused. -/
theorem steady_after (data : σ) (moves : List (Move I σ ε α))
    (bracketed : ∀ plan, .start plan ∈ moves → plan.Bracketed) :
    ((initial data).after moves).Steady := by
  have initially : (initial data : Machine I σ ε α).Steady :=
    ⟨guarded_initial data, (orderly_after data []).2, alert_initial data⟩
  exact initially.after moves bracketed

end

end Machine

end SignedOrders.Tasks
