import Mathlib.Data.List.Induction
import Mathlib.Data.List.Nodup
import SignedOrders.Proofs.Tasks.Steps

/-!
# One task at a time in the turnstile

A task that leaves the turnstile calls the first who waits, but it does not hand the
turnstile over: until the called task runs, nobody is in it.  Tasks that come meanwhile
wait behind the called one, so that it finds the turnstile free when it runs.  If it is
cancelled instead, it calls the next.

So the waiting tasks are **orderly** at every point: only the first of them can have been
called, nobody is in the turnstile then, and never are two tasks in it (`orderly_after`).
A point inside a move leaves out the task that runs, which does not wait.
-/

namespace SignedOrders.Tasks

variable {I : Interface} {σ ε α : Type}

namespace Machine

/-- A task waits at the turnstile. -/
def AtDoor (m : Machine I σ ε α) (id : Nat) : Prop :=
  ∃ t, m.scene[id]? = some t ∧ t.point = .atTurnstile

/-- A task that waits at the turnstile has been called, even if it was cancelled since. -/
def Called (m : Machine I σ ε α) (id : Nat) : Prop :=
  ∃ t, m.threads[id]? = some t ∧ t.point = .atTurnstile ∧ (t.wake = .granted ∨ t.wake = .revoked)

/-- A task is in the turnstile. -/
def Serial (m : Machine I σ ε α) (id : Nat) : Prop :=
  ∃ t, m.scene[id]? = some t ∧ t.serial = true

/-- Where the waiting tasks are, all but the one that runs. -/
structure Orderly (m : Machine I σ ε α) (runs : Option Nat) : Prop where
  asleep : ∀ id ∈ m.sleepers, runs ≠ some id ∧
    ∃ t mode, m.scene[id]? = some t ∧ t.point = .asleep mode
  sleepers_nodup : m.sleepers.Nodup
  queued : ∀ id ∈ m.turnstile.queue, runs ≠ some id ∧ m.AtDoor id
  queue_nodup : m.turnstile.queue.Nodup
  called : ∀ id, runs ≠ some id → m.Called id →
    m.turnstile.queue.head? = some id ∧ m.turnstile.occupied = false
  serial : ∀ id, runs ≠ some id → m.Serial id → m.turnstile.occupied = true
  unique : ∀ id other, runs ≠ some id → runs ≠ some other → m.Serial id → m.Serial other →
    id = other

/-- Nobody is in the turnstile, and no task has been called to it but one that may be. -/
def Vacant (m : Machine I σ ε α) (id : Nat) : Prop :=
  m.turnstile.occupied = false ∧ ∀ other, other ≠ id → ¬ m.Called other

section

variable {m m' last : Machine I σ ε α} {id other : Nat} {runs : Option Nat} {held held' : Bool}
  {p p' : Plan I σ ε α} {t : Thread I σ ε α} {new wrote : List Nat}

/-- The task that runs is left out, and no other. -/
theorem runs_ne_iff : some id ≠ some other ↔ other ≠ id :=
  not_congr (Option.some_inj.trans eq_comm)

/-- Between the moves no task is left out. -/
theorem nobody_runs (id : Nat) : none ≠ some id := (Option.some_ne_none id).symm

/-! ## Who is called -/

theorem Called.atDoor (h : m.Called id) : m.AtDoor id := by
  obtain ⟨t, found, point, -⟩ := h
  exact ⟨t.still, getElem?_scene_of_found found, point⟩

theorem called_congr (same : last.threads[id]? = m.threads[id]?) :
    last.Called id ↔ m.Called id := by
  unfold Called
  rw [same]

theorem called_modify_of_ne (hne : other ≠ id) (f : Thread I σ ε α → Thread I σ ε α) :
    (m.modify id f).Called other ↔ m.Called other :=
  called_congr (m.getElem?_modify_of_ne hne f)

theorem atDoor_of_core (same : last.core = m.core) : last.AtDoor id ↔ m.AtDoor id := by
  unfold AtDoor
  rw [scene_of_core same]

theorem serial_congr (same : last.scene[id]? = m.scene[id]?) : last.Serial id ↔ m.Serial id := by
  unfold Serial
  rw [same]

theorem serial_of_core (same : last.core = m.core) : last.Serial id ↔ m.Serial id :=
  serial_congr (by rw [scene_of_core same])

/-- To wake a task calls at most this task. -/
theorem Called.of_awaken (h : (m.awaken id).Called other) :
    m.Called other ∨ other = id ∧ m.AtDoor other := by
  by_cases hid : other = id
  · exact .inr ⟨hid, (atDoor_of_core (m.core_awaken id)).1 h.atDoor⟩
  · left
    unfold awaken at h
    split at h
    · exact (called_modify_of_ne hid _).1 h
    · exact h

theorem Called.of_foldl_awaken {ids : List Nat} (h : (ids.foldl awaken m).Called other) :
    m.Called other ∨ other ∈ ids ∧ m.AtDoor other := by
  induction ids generalizing m with
  | nil => exact .inl h
  | cons id ids ih =>
    rcases ih h with called | ⟨later, atDoor⟩
    · rcases called.of_awaken with called | ⟨rfl, atDoor⟩
      · exact .inl called
      · exact .inr ⟨List.mem_cons_self, atDoor⟩
    · exact .inr ⟨List.mem_cons_of_mem _ later, (atDoor_of_core (m.core_awaken id)).1 atDoor⟩

/-- Sleepers are not at the turnstile, so that waking them calls nobody. -/
theorem Orderly.of_awakenSleepers (h : m.Orderly runs) (called : m.awakenSleepers.Called other) :
    m.Called other := by
  rcases called.of_foldl_awaken with called | ⟨sleeps, t, found, point⟩
  · exact called
  · obtain ⟨-, u, mode, found', point'⟩ := h.asleep other sleeps
    rw [Option.some.inj (found.symm.trans found')] at point
    cases point.symm.trans point'

theorem called_cancel (h : (m.cancel id).Called other) : m.Called other := by
  unfold cancel at h
  split at h
  · exact h
  rename_i t found
  by_cases hid : other = id
  · subst hid
    -- only a task that was called before is revoked
    split at h
    · exact h
    · obtain ⟨u, found', -, wake⟩ := h
      rw [show Machine.threads _ = (m.modify other _).threads from rfl, getElem?_modify_self,
        found] at found'
      cases found'
      rcases wake with wake | wake <;> cases wake
    · rename_i granted _
      obtain ⟨u, found', point, -⟩ := h
      rw [getElem?_modify_self, found] at found'
      cases found'
      exact ⟨t, found, point, .inl granted⟩
    · exact h
  · split at h
    · exact h
    · exact (called_modify_of_ne hid _).1 h
    · exact (called_modify_of_ne hid _).1 h
    · exact h

theorem called_tell {told : Outcome ε Unit} (h : (m.tell id told).Called other) :
    m.Called other := by
  -- a task that is told is not at the turnstile when this wakes it
  have told_same (h : (m.modify id fun t => { t with told := t.told.or (some told) }).Called
      other) : m.Called other := by
    by_cases hid : other = id
    · subst hid
      obtain ⟨u, found', point, wake⟩ := h
      rw [getElem?_modify_self, Option.map_eq_some_iff] at found'
      obtain ⟨t, found, rfl⟩ := found'
      exact ⟨t, found, point, wake⟩
    · exact (called_modify_of_ne hid _).1 h
  unfold tell at h
  dsimp only at h
  split at h
  · rename_i mode inside
    rcases h.of_awaken with called | ⟨rfl, u, found, point⟩
    · exact told_same called
    · unfold pointOf? at inside
      rw [getElem?_scene, Option.map_eq_some_iff] at found
      obtain ⟨v, found, rfl⟩ := found
      rw [found, Option.map_some, Option.some.injEq] at inside
      cases inside.symm.trans point
  · exact told_same h

/-! ## Tasks that wait -/

theorem turnstile_of_core (same : last.core = m.core) : last.turnstile = m.turnstile := by
  show last.core.turnstile = m.core.turnstile
  rw [same]

theorem sleepers_of_core (same : last.core = m.core) : last.sleepers = m.sleepers := by
  show last.core.sleepers = m.core.sleepers
  rw [same]

/-- What is asked of waiting tasks depends on where they are and who is called. -/
theorem Orderly.of_core (h : m.Orderly runs) (same : last.core = m.core)
    (called : ∀ id, last.Called id → m.Called id) : last.Orderly runs := by
  have scene := scene_of_core same
  have turnstile := turnstile_of_core same
  constructor
  · rw [sleepers_of_core same, scene]
    exact h.asleep
  · rw [sleepers_of_core same]
    exact h.sleepers_nodup
  · rw [turnstile]
    exact fun id hid => ⟨(h.queued id hid).1, (atDoor_of_core same).2 (h.queued id hid).2⟩
  · rw [turnstile]
    exact h.queue_nodup
  · rw [turnstile]
    exact fun id hid hcalled => h.called id hid (called id hcalled)
  · rw [turnstile]
    exact fun id hid serial => h.serial id hid ((serial_of_core same).1 serial)
  · intro id other hid hother serial serial'
    exact h.unique id other hid hother ((serial_of_core same).1 serial)
      ((serial_of_core same).1 serial')

/-- The task that runs changes only its own part. -/
theorem Orderly.of_others (h : m.Orderly (some id)) (others : last.others id = m.others id)
    (sleepers : last.sleepers = m.sleepers) (turnstile : last.turnstile = m.turnstile)
    (called : ∀ other, other ≠ id → last.Called other → m.Called other) :
    last.Orderly (some id) := by
  have found_of {other : Nat} (hne : some id ≠ some other) :
      last.scene[other]? = m.scene[other]? :=
    getElem?_of_others others (runs_ne_iff.1 hne)
  constructor
  · rw [sleepers]
    intro other hother
    obtain ⟨hne, t, mode, found, point⟩ := h.asleep other hother
    exact ⟨hne, t, mode, (found_of hne).trans found, point⟩
  · rw [sleepers]
    exact h.sleepers_nodup
  · rw [turnstile]
    intro other hother
    obtain ⟨hne, t, found, point⟩ := h.queued other hother
    exact ⟨hne, t, (found_of hne).trans found, point⟩
  · rw [turnstile]
    exact h.queue_nodup
  · rw [turnstile]
    exact fun other hne hcalled => h.called other hne (called other (runs_ne_iff.1 hne) hcalled)
  · rw [turnstile]
    exact fun other hne serial => h.serial other hne ((serial_congr (found_of hne)).1 serial)
  · intro i j hi hj serial serial'
    exact h.unique i j hi hj ((serial_congr (found_of hi)).1 serial)
      ((serial_congr (found_of hj)).1 serial')

/-- If the task is in the turnstile, no other one is. -/
def Keeps (m : Machine I σ ε α) (id : Nat) : Prop :=
  m.Serial id → m.turnstile.occupied = true ∧ ∀ other, other ≠ id → ¬ m.Serial other

theorem Keeps.congr (h : m.Keeps id) (scene : last.scene = m.scene)
    (turnstile : last.turnstile = m.turnstile) : last.Keeps id := by
  have same (other : Nat) : last.Serial other ↔ m.Serial other := serial_congr (by rw [scene])
  intro serial
  obtain ⟨occupied, alone⟩ := h ((same id).1 serial)
  rw [turnstile]
  exact ⟨occupied, fun other hne serial => alone other hne ((same other).1 serial)⟩

/-- A task that neither sleeps nor waits at the turnstile may run. -/
theorem Orderly.leave (h : m.Orderly none) (sleeps : id ∉ m.sleepers)
    (waits : id ∉ m.turnstile.queue) : m.Orderly (some id) := by
  refine ⟨fun other hother => ⟨?_, (h.asleep other hother).2⟩, h.sleepers_nodup,
    fun other hother => ⟨?_, (h.queued other hother).2⟩, h.queue_nodup,
    fun other _ => h.called other (nobody_runs _), fun other _ => h.serial other (nobody_runs _),
    fun i j _ _ => h.unique i j (nobody_runs _) (nobody_runs _)⟩
  · rintro ⟨⟩
    exact sleeps hother
  · rintro ⟨⟩
    exact waits hother

theorem Orderly.keeps (h : m.Orderly none) (id : Nat) : m.Keeps id := by
  intro serial
  refine ⟨h.serial id (nobody_runs _) serial, fun other hne serial' => hne ?_⟩
  exact h.unique other id (nobody_runs _) (nobody_runs _) serial' serial

/-- A task that has run and is not called waits with the others. -/
theorem Orderly.settle (h : m.Orderly (some id)) (keeps : m.Keeps id) (uncalled : ¬ m.Called id) :
    m.Orderly none := by
  refine ⟨fun other hother => ⟨by rintro ⟨⟩, (h.asleep other hother).2⟩, h.sleepers_nodup,
    fun other hother => ⟨by rintro ⟨⟩, (h.queued other hother).2⟩, h.queue_nodup, ?_, ?_, ?_⟩
  · intro other _ called
    have hne : other ≠ id := by
      rintro rfl
      exact uncalled called
    exact h.called other (runs_ne_iff.2 hne) called
  · intro other _ serial
    by_cases hid : other = id
    · subst hid
      exact (keeps serial).1
    · exact h.serial other (runs_ne_iff.2 hid) serial
  · intro i j _ _ serial serial'
    by_cases hi : i = id
    · subst hi
      by_contra hne
      exact (keeps serial).2 j (Ne.symm hne) serial'
    · by_cases hj : j = id
      · subst hj
        exact absurd serial ((keeps serial').2 i hi)
      · exact h.unique i j (runs_ne_iff.2 hi) (runs_ne_iff.2 hj) serial serial'

/-! ## What tasks do with the lock and at the turnstile -/

/-- What is not about waiting tasks may change. -/
theorem Orderly.frame (h : m.Orderly runs) (threads : last.threads = m.threads)
    (sleepers : last.sleepers = m.sleepers) (turnstile : last.turnstile = m.turnstile) :
    last.Orderly runs := by
  have scene : last.scene = m.scene := by
    unfold Machine.scene
    rw [threads]
  have serial (id : Nat) : last.Serial id ↔ m.Serial id := serial_congr (by rw [scene])
  have called (id : Nat) : last.Called id ↔ m.Called id := called_congr (by rw [threads])
  obtain ⟨h₁, h₂, h₃, h₄, h₅, h₆, h₇⟩ := h
  constructor
  · rwa [sleepers, scene]
  · rwa [sleepers]
  · unfold AtDoor at h₃ ⊢
    rwa [turnstile, scene]
  · rwa [turnstile]
  · simpa only [turnstile, called] using h₅
  · simpa only [turnstile, serial] using h₆
  · simpa only [serial] using h₇

theorem Orderly.awakenSleepers (h : m.Orderly runs) : m.awakenSleepers.Orderly runs :=
  h.of_core m.core_awakenSleepers fun _ => h.of_awakenSleepers

theorem Orderly.release (h : m.Orderly runs) (mode : Mode) : (m.release mode).Orderly runs := by
  cases mode with
  | shared =>
    have h' : Orderly { m with readers := m.readers - 1 } runs := h.frame rfl rfl rfl
    unfold Machine.release
    dsimp only
    split
    · exact h'.awakenSleepers
    · exact h'
  | exclusive =>
    have h' : Orderly { m with writing := false } runs := h.frame rfl rfl rfl
    exact h'.awakenSleepers

theorem Orderly.withdraw (h : m.Orderly runs) (mode : Mode) : (m.withdraw mode).Orderly runs := by
  cases mode with
  | shared => exact h
  | exclusive =>
    have h' : Orderly { m with writersWaiting := m.writersWaiting - 1 } runs := h.frame rfl rfl rfl
    exact h'.awakenSleepers

theorem turnstile_release (m : Machine I σ ε α) (mode : Mode) :
    (m.release mode).turnstile = m.turnstile := by
  show (m.release mode).core.turnstile = m.core.turnstile
  cases mode with
  | shared => rw [core_release_shared]
  | exclusive => rw [core_release_exclusive]

theorem turnstile_withdraw (m : Machine I σ ε α) (mode : Mode) :
    (m.withdraw mode).turnstile = m.turnstile := by
  cases mode with
  | shared => rfl
  | exclusive =>
    show (m.withdraw .exclusive).core.turnstile = m.core.turnstile
    rw [core_withdraw_exclusive]

/-- The first who waits is called when nobody is in the turnstile. -/
theorem Orderly.callNext (h : m.Orderly runs) (free : m.turnstile.occupied = false) :
    (m.callNext .turnstile).Orderly runs := by
  have same := m.core_callNext .turnstile
  have turnstile := turnstile_of_core same
  have called {id : Nat} (hcalled : (m.callNext .turnstile).Called id) :
      m.Called id ∨ m.turnstile.queue.head? = some id := by
    unfold Machine.callNext passage at hcalled
    dsimp only at hcalled
    cases queue : m.turnstile.queue with
    | nil =>
      rw [queue] at hcalled
      exact .inl hcalled
    | cons first rest =>
      rw [queue] at hcalled
      rcases hcalled.of_awaken with hcalled | ⟨rfl, -⟩
      · exact .inl hcalled
      · exact .inr rfl
  constructor
  · rw [sleepers_of_core same, scene_of_core same]
    exact h.asleep
  · rw [sleepers_of_core same]
    exact h.sleepers_nodup
  · rw [turnstile]
    exact fun id hid => ⟨(h.queued id hid).1, (atDoor_of_core same).2 (h.queued id hid).2⟩
  · rw [turnstile]
    exact h.queue_nodup
  · rw [turnstile]
    intro id hne hcalled
    rcases called hcalled with hcalled | first
    · exact h.called id hne hcalled
    · exact ⟨first, free⟩
  · rw [turnstile]
    exact fun id hne serial => h.serial id hne ((serial_of_core same).1 serial)
  · intro i j hi hj serial serial'
    exact h.unique i j hi hj ((serial_of_core same).1 serial) ((serial_of_core same).1 serial')

/-- A task no longer waits at the turnstile. -/
theorem Orderly.quit (h : m.Orderly none) (id : Nat) (sleeps : id ∉ m.sleepers) :
    (m.quitQueue .turnstile id).Orderly (some id) := by
  have quit {other : Nat} (hother : other ∈ m.turnstile.queue.erase id) :
      other ≠ id ∧ other ∈ m.turnstile.queue := h.queue_nodup.mem_erase_iff.1 hother
  refine ⟨fun other hother => ⟨?_, (h.asleep other hother).2⟩, h.sleepers_nodup,
    fun other hother => ⟨?_, (h.queued other (quit hother).2).2⟩, h.queue_nodup.erase _, ?_,
    fun other _ => h.serial other (nobody_runs _),
    fun i j _ _ => h.unique i j (nobody_runs _) (nobody_runs _)⟩
  · rintro ⟨⟩
    exact sleeps hother
  · exact runs_ne_iff.2 (quit hother).1
  · intro other hne called
    obtain ⟨first, free⟩ := h.called other (nobody_runs _) called
    refine ⟨?_, free⟩
    have hid := runs_ne_iff.1 hne
    show (m.turnstile.queue.erase id).head? = some other
    cases queue : m.turnstile.queue with
    | nil =>
      rw [queue] at first
      cases first
    | cons head rest =>
      rw [queue] at first
      cases first
      rw [List.erase_cons_tail (by simpa using hid)]
      rfl

/-- A task gives up waiting at the turnstile, and passes a call on. -/
theorem Orderly.giveUp (h : m.Orderly none) (id : Nat) (sleeps : id ∉ m.sleepers) :
    (m.giveUp .turnstile id).Orderly (some id) := by
  have quit := h.quit id sleeps
  unfold Machine.giveUp
  dsimp only
  split
  · exact quit
  · rename_i free
    exact quit.callNext (by simpa [passage] using free)

/-- A task that was called finds the turnstile vacant. -/
theorem Orderly.vacant (h : m.Orderly none) (called : m.Called id) : m.Vacant id := by
  obtain ⟨first, free⟩ := h.called id (nobody_runs _) called
  refine ⟨free, fun other hne hother => hne ?_⟩
  obtain ⟨first', -⟩ := h.called other (nobody_runs _) hother
  exact Option.some.inj (first'.symm.trans first)

/-- A task that finds the turnstile open finds it vacant. -/
theorem Orderly.vacant_of_isOpen (h : m.Orderly (some id)) (free : m.isOpen .turnstile = true) :
    m.Vacant id := by
  unfold isOpen passage at free
  simp only [Bool.and_eq_true, Bool.not_eq_true', List.all_eq_true, decide_eq_true_eq] at free
  refine ⟨free.1, fun other hne called => ?_⟩
  have first := (h.called other (runs_ne_iff.2 hne) called).1
  have cancelled := free.2 other (List.mem_of_head? first)
  obtain ⟨t, found, -, wake⟩ := called
  unfold wakeOf at cancelled
  rw [found, Option.map_some, Option.getD_some] at cancelled
  rw [cancelled] at wake
  rcases wake with wake | wake <;> cases wake

/-! ## A running task -/

/-- The waiting tasks are orderly, and the running one finds the turnstile vacant when it
passes. -/
structure Running (m : Machine I σ ε α) (id : Nat) (held : Bool) (p : Plan I σ ε α) : Prop where
  orderly : m.Orderly (some id)
  keeps : m.Keeps id
  admitted : held = true → (∃ next, p = .serial next) → m.Vacant id

theorem Running.of_not_held (orderly : m.Orderly (some id)) (keeps : m.Keeps id) :
    m.Running id false p :=
  ⟨orderly, keeps, by rintro ⟨⟩⟩

theorem Running.release (h : m.Running id held p) (mode : Mode) :
    (m.release mode).Running id false p' :=
  .of_not_held (h.orderly.release mode)
    (h.keeps.congr (scene_release ..) (turnstile_release ..))

theorem Running.handBack (h : m.Running id false p) (under : Option Mode) :
    (m.handBack under).Running id false p := by
  cases under with
  | none => exact h
  | some mode => exact h.release mode

/-- A task that finds the turnstile vacant is alone in it. -/
theorem Running.enter {next : Plan I σ ε α} (h : m.Running id true (.serial next)) :
    Running ((m.occupyDoor .turnstile).modify id fun t => { t with serial := true }) id false
      next := by
  obtain ⟨free, uncalled⟩ := h.admitted rfl ⟨next, rfl⟩
  have found_of {other : Nat} (hne : other ≠ id) :
      ((m.occupyDoor .turnstile).modify id fun t => { t with serial := true }).scene[other]? =
        m.scene[other]? :=
    getElem?_of_others (m := m) (others_modify ..) hne
  have empty {other : Nat} (hne : other ≠ id) : ¬ m.Serial other := by
    intro serial
    have occupied := h.orderly.serial other (runs_ne_iff.2 hne) serial
    cases free.symm.trans occupied
  have alone (other : Nat) (hne : other ≠ id) :
      ¬ ((m.occupyDoor .turnstile).modify id fun t => { t with serial := true }).Serial other :=
    fun serial => empty hne ((serial_congr (found_of hne)).1 serial)
  refine .of_not_held ?_ fun _ => ⟨rfl, alone⟩
  constructor
  · intro other hother
    obtain ⟨hne, t, mode, found, point⟩ := h.orderly.asleep other hother
    exact ⟨hne, t, mode, (found_of (runs_ne_iff.1 hne)).trans found, point⟩
  · exact h.orderly.sleepers_nodup
  · intro other hother
    obtain ⟨hne, t, found, point⟩ := h.orderly.queued other hother
    exact ⟨hne, t, (found_of (runs_ne_iff.1 hne)).trans found, point⟩
  · exact h.orderly.queue_nodup
  · intro other hne called
    have hne := runs_ne_iff.1 hne
    exact absurd ((called_modify_of_ne hne _).1 called) (uncalled other hne)
  · exact fun _ _ _ => rfl
  · intro i j hi hj serial
    exact absurd serial (alone i (runs_ne_iff.1 hi))

/-- **A step of a running task** leaves the waiting tasks orderly. -/
theorem Goes.running (h : Goes id m held p new m' held' p') (running : m.Running id held p) :
    m'.Running id held' p' := by
  have orderly := running.orderly
  have keeps := running.keeps
  cases h with
  | peek => exact .of_not_held orderly keeps
  | mark => exact .of_not_held (orderly.frame rfl rfl rfl) (keeps.congr rfl rfl)
  | relinquish => exact running.release _
  | @take mode _ wants =>
    refine ⟨?_, ?_, ?_⟩
    · cases mode <;> exact orderly.frame rfl rfl rfl
    · cases mode <;> exact keeps.congr rfl rfl
    · rintro - ⟨next, rfl⟩
      cases wants
  | shared => exact running.release _
  | @exclusive _ data =>
    have orderly : Orderly { m with data } (some id) := orderly.frame rfl rfl rfl
    have keeps : Keeps { m with data } id := keeps.congr rfl rfl
    exact .of_not_held (orderly.release _) (keeps.congr (scene_release ..) (turnstile_release ..))
  | refused => exact running.release _
  | @hold mode =>
    have orderly : (m.untell id).Orderly (some id) := orderly.of_others (others_untell ..) rfl rfl
      fun other hne => (called_modify_of_ne hne _).1
    have keeps : (m.untell id).Keeps id := keeps.congr (scene_untell ..) rfl
    have orderly : ((m.report id .acquired).untell id).Orderly (some id) :=
      orderly.frame rfl rfl rfl
    have keeps : ((m.report id .acquired).untell id).Keeps id := keeps.congr rfl rfl
    exact .of_not_held (orderly.release _) (keeps.congr (scene_release ..) (turnstile_release ..))
  | pass free => exact ⟨orderly, keeps, fun _ _ => orderly.vacant_of_isOpen free⟩
  | serial => exact running.enter

/-- A task that ends lets go of the turnstile. -/
theorem Orderly.vacate (h : m.Orderly (some id)) (keeps : m.Keeps id) :
    (m.vacate id).Orderly (some id) := by
  unfold Machine.vacate
  split
  · rename_i serial
    have inside : m.Serial id := by
      cases found : m.threads[id]? with
      | none =>
        rw [found] at serial
        cases serial
      | some t =>
        rw [found] at serial
        exact ⟨t.still, getElem?_scene_of_found found, serial⟩
    have free : (m.setPassage .turnstile ⟨false, m.turnstile.queue⟩).Orderly (some id) := by
      refine ⟨h.asleep, h.sleepers_nodup, h.queued, h.queue_nodup, ?_, ?_, h.unique⟩
      · exact fun other hne called => ⟨(h.called other hne called).1, rfl⟩
      · intro other hne serial
        refine absurd serial ((keeps inside).2 other ?_)
        rintro rfl
        exact hne rfl
    exact free.callNext rfl
  · exact h

theorem Orderly.modify (h : m.Orderly (some id)) (f : Thread I σ ε α → Thread I σ ε α) :
    (m.modify id f).Orderly (some id) :=
  h.of_others (others_modify ..) rfl rfl fun _ hne => (called_modify_of_ne hne _).1

theorem Keeps.modify (h : m.Keeps id) {f : Thread I σ ε α → Thread I σ ε α}
    (hf : ∀ t, (f t).serial = t.serial) : (m.modify id f).Keeps id := by
  have same (other : Nat) : (m.modify id f).Serial other → m.Serial other := by
    rintro ⟨u, found, serial⟩
    by_cases hid : other = id
    · subst hid
      rw [getElem?_scene, getElem?_modify_self, Option.map_map, Option.map_eq_some_iff] at found
      obtain ⟨t, found, rfl⟩ := found
      exact ⟨t.still, getElem?_scene_of_found found, (hf t).symm.trans serial⟩
    · exact (serial_congr (getElem?_of_others (others_modify ..) hid)).1 ⟨u, found, serial⟩
  intro serial
  obtain ⟨occupied, alone⟩ := h (same id serial)
  exact ⟨occupied, fun other hne serial => alone other hne (same other serial)⟩

theorem not_called_park (m : Machine I σ ε α) (id : Nat) (point : Point ε α) (plan : Plan I σ ε α) :
    ¬ (m.park id point plan).Called id := by
  rintro ⟨t, found, -, wake⟩
  rw [park, getElem?_modify_self, Option.map_eq_some_iff] at found
  obtain ⟨u, -, rfl⟩ := found
  rcases wake with wake | wake <;> cases wake

theorem Orderly.park (h : m.Orderly (some id)) (keeps : m.Keeps id) (point : Point ε α)
    (plan : Plan I σ ε α) : (m.park id point plan).Orderly none :=
  (h.modify _).settle (keeps.modify fun _ => rfl) (m.not_called_park id point plan)

theorem Orderly.awaitAnswer (h : m.Orderly (some id)) (keeps : m.Keeps id)
    (under : Option Mode) (turns : Nat) (plan : Plan I σ ε α) :
    (m.awaitAnswer id under turns plan).Orderly none := by
  have orderly : (m.awaitAnswer id under turns plan).Orderly (some id) :=
    (h.modify _).frame rfl rfl rfl
  have keeps' : (m.modify id fun t =>
      { t with plan, point := .answered under turns, wake := .granted }).Keeps id :=
    keeps.modify fun _ => rfl
  refine orderly.settle (keeps'.congr rfl rfl) ?_
  rintro ⟨t, found, point, -⟩
  rw [show (m.awaitAnswer id under turns plan).threads[id]? = (m.modify id _).threads[id]? from
      rfl,
    getElem?_modify_self, Option.map_eq_some_iff] at found
  obtain ⟨u, -, rfl⟩ := found
  cases point

theorem Orderly.retire (h : m.Orderly (some id)) (keeps : m.Keeps id) (outcome : Outcome ε α) :
    (m.retire id outcome).Orderly none := by
  have orderly : (m.retire id outcome).Orderly (some id) :=
    ((h.vacate keeps).modify _).frame rfl rfl rfl
  have own {t : Thread I σ ε α} (found : (m.retire id outcome).scene[id]? = some t) :
      t.serial = false ∧ t.point = .ended outcome := by
    rw [getElem?_scene_retire, Option.map_eq_some_iff] at found
    obtain ⟨u, -, rfl⟩ := found
    exact ⟨rfl, rfl⟩
  refine orderly.settle ?_ ?_
  · rintro ⟨t, found, serial⟩
    rw [(own found).1] at serial
    cases serial
  · intro called
    obtain ⟨t, found, point⟩ := called.atDoor
    rw [(own found).2] at point
    cases point

theorem Orderly.sleep (h : m.Orderly (some id)) (keeps : m.Keeps id)
    (found : m.scene[id]? = some t) (mode : Mode) (plan : Plan I σ ε α) :
    (m.sleep id mode plan).Orderly none := by
  have parked := h.park keeps (.asleep mode) plan
  have sleeps : id ∉ m.sleepers := fun hid => (h.asleep id hid).1 rfl
  have found' := (m.getElem?_scene_park id (.asleep mode) plan).trans (congrArg _ found)
  refine ⟨?_, ?_, parked.queued, parked.queue_nodup, parked.called, parked.serial, parked.unique⟩
  · intro other hother
    rcases List.mem_append.1 hother with hother | hother
    · exact parked.asleep other hother
    · rw [List.mem_singleton.1 hother]
      exact ⟨by rintro ⟨⟩, _, mode, found', rfl⟩
  · exact List.nodup_append.2 ⟨h.sleepers_nodup, List.nodup_singleton id, by
      rintro other hother _ hid rfl
      rw [List.mem_singleton.1 hid] at hother
      exact sleeps hother⟩

/-- A task waits behind all others at the turnstile. -/
theorem Orderly.join (h : m.Orderly (some id)) (keeps : m.Keeps id)
    (found : m.scene[id]? = some t) (plan : Plan I σ ε α) :
    ((m.joinQueue .turnstile id).park id .atTurnstile plan).Orderly none := by
  have parked := h.park keeps .atTurnstile plan
  have waits : id ∉ m.turnstile.queue := fun hid => (h.queued id hid).1 rfl
  have found' := (m.getElem?_scene_park id .atTurnstile plan).trans (congrArg _ found)
  refine ⟨parked.asleep, parked.sleepers_nodup, ?_, ?_, ?_, parked.serial, parked.unique⟩
  · intro other hother
    rcases List.mem_append.1 hother with hother | hother
    · exact parked.queued other hother
    · rw [List.mem_singleton.1 hother]
      exact ⟨by rintro ⟨⟩, _, found', rfl⟩
  · exact List.nodup_append.2 ⟨h.queue_nodup, List.nodup_singleton id, by
      rintro other hother _ hid rfl
      rw [List.mem_singleton.1 hid] at hother
      exact waits hother⟩
  · intro other hne called
    obtain ⟨first, free⟩ := parked.called other hne called
    refine ⟨?_, free⟩
    show (m.turnstile.queue ++ [id]).head? = some other
    rw [List.head?_append, show m.turnstile.queue.head? = some other from first]
    rfl

/-- **A task that stops** waits with the others, or ends and calls the next. -/
theorem Stops.orderly (h : Stops id m held p last) (running : m.Running id held p)
    (found : m.scene[id]? = some t) : last.Orderly none := by
  have orderly := running.orderly
  have keeps := running.keeps
  cases h with
  | finish => exact orderly.retire keeps _
  | ask => exact orderly.park keeps _ _
  | @sleep mode p =>
    have orderly : (m.arrive mode).Orderly (some id) := by
      cases mode <;> exact orderly.frame rfl rfl rfl
    have keeps : (m.arrive mode).Keeps id := by cases mode <;> exact keeps.congr rfl rfl
    have found : (m.arrive mode).scene[id]? = some t := by cases mode <;> exact found
    exact orderly.sleep keeps found mode p
  | @hold mode next =>
    have parked := orderly.park keeps (.inside mode) (.hold mode next)
    exact parked.frame rfl rfl rfl
  | queue => exact orderly.join keeps found _

theorem Stretch.orderly (h : Stretch id m held p wrote last) (running : m.Running id held p)
    (found : m.scene[id]? = some t) : last.Orderly none := by
  induction h generalizing t with
  | stop h => exact h.orderly running found
  | go h _ ih =>
    obtain ⟨serial, found⟩ := h.exists_found found
    exact ih (h.running running) found

/-! ## A task that wakes -/

/-- A task that does not wait in a line may run. -/
theorem Orderly.running_of_point (h : m.Orderly none) (found : m.scene[id]? = some t)
    (awake : ∀ mode, t.point ≠ .asleep mode) (elsewhere : t.point ≠ .atTurnstile) :
    m.Running id false p := by
  refine .of_not_held (h.leave ?_ ?_) (h.keeps id)
  · intro sleeps
    obtain ⟨-, u, mode, found', point⟩ := h.asleep id sleeps
    rw [← Option.some.inj (found.symm.trans found')] at point
    exact awake mode point
  · intro waits
    obtain ⟨-, u, found', point⟩ := h.queued id waits
    rw [← Option.some.inj (found.symm.trans found')] at point
    exact elsewhere point

/-- A task that rises is not asleep any more. -/
theorem Orderly.rise (h : m.Orderly none) {mode : Mode} (found : m.scene[id]? = some t)
    (point : t.point = .asleep mode) : (m.rise id).Orderly (some id) := by
  have waits : id ∉ m.turnstile.queue := by
    intro waits
    obtain ⟨-, u, found', point'⟩ := h.queued id waits
    rw [← Option.some.inj (found.symm.trans found')] at point'
    cases point.symm.trans point'
  have risen {other : Nat} (hother : other ∈ m.sleepers.erase id) :
      other ≠ id ∧ other ∈ m.sleepers := h.sleepers_nodup.mem_erase_iff.1 hother
  have awake : (m.rise id).Orderly none :=
    ⟨fun other hother => h.asleep other (risen hother).2, h.sleepers_nodup.erase _, h.queued,
      h.queue_nodup, h.called, h.serial, h.unique⟩
  exact awake.leave (fun hid => (risen hid).1 rfl) waits

theorem Wakes.running (h : Wakes id m t m' held p) (orderly : m.Orderly none)
    (found : m.threads[id]? = some t) (placed : t.Placed) : m'.Running id held p := by
  have found' := getElem?_scene_of_found found
  have keeps := orderly.keeps id
  unfold Thread.Placed at placed
  -- where the task has waited
  have elsewhere (p : Plan I σ ε α) (awake : ∀ mode, t.point ≠ .asleep mode)
      (away : t.point ≠ .atTurnstile) : m.Running id false p :=
    orderly.running_of_point found' awake away
  have awake (waits : t.point = .atTurnstile) : id ∉ m.sleepers := by
    intro sleeps
    obtain ⟨-, u, mode, found'', point⟩ := orderly.asleep id sleeps
    rw [← Option.some.inj (found'.symm.trans found'')] at point
    cases waits.symm.trans point
  cases h with
  | fresh point => exact elsewhere _ (by simp [point]) (by simp [point])
  | @again mode point =>
    rw [point] at placed
    have risen := orderly.rise found' point
    refine ⟨?_, ?_, ?_⟩
    · cases mode <;> exact risen.frame rfl rfl rfl
    · cases mode <;> exact keeps.congr rfl rfl
    · rintro - ⟨next, plan⟩
      rw [plan] at placed
      cases placed
  | withdraw point =>
    have risen := orderly.rise found' point
    have keeps : (m.rise id).Keeps id := keeps.congr rfl rfl
    exact .of_not_held (risen.withdraw _) (keeps.congr (scene_withdraw ..) (turnstile_withdraw ..))
  | leave point =>
    have running := elsewhere t.plan (by simp [point]) (by simp [point])
    have untold : (m.untell id).Keeps id := running.keeps.congr (scene_untell ..) rfl
    exact .of_not_held ((running.orderly.modify _).release _)
      (untold.congr (scene_release ..) (turnstile_release ..))
  | answered point => exact (elsewhere _ (by simp [point]) (by simp [point])).handBack _
  | pass point called =>
    refine ⟨orderly.quit id (awake point), ?_, fun _ _ => ?_⟩
    · exact fun serial => keeps serial
    · exact orderly.vacant ⟨t, found, point, .inl called⟩
  | giveUp point =>
    refine .of_not_held (orderly.giveUp id (awake point)) ?_
    unfold Machine.giveUp
    dsimp only
    have quit : (m.quitQueue .turnstile id).Keeps id := fun serial => keeps serial
    split
    · exact quit
    · have same := (m.quitQueue .turnstile id).core_callNext .turnstile
      exact quit.congr (scene_of_core same) (turnstile_of_core same)
  | drop point => exact elsewhere _ (by simp [point]) (by simp [point])
  | unanswered point =>
    rcases point with point | ⟨turns, point⟩
    all_goals exact (elsewhere _ (by simp [point]) (by simp [point])).handBack _

theorem Turn.orderly (h : Turn id m t wrote last) (orderly : m.Orderly none)
    (found : m.threads[id]? = some t) (placed : t.Placed) : last.Orderly none := by
  have found' := getElem?_scene_of_found found
  cases h with
  | goes wakes goes =>
    have running := wakes.running orderly found placed
    rw [← wakes.scene_eq] at found'
    exact goes.orderly running found'
  | @asleep mode point =>
    have keeps : (m.rise id).Keeps id := (orderly.keeps id).congr rfl rfl
    exact (orderly.rise found' point).sleep keeps found' mode t.plan
  | later point =>
    have running : m.Running id false t.plan :=
      orderly.running_of_point found' (by simp [Thread.still, point])
        (by simp [Thread.still, point])
    exact running.orderly.awaitAnswer running.keeps _ _ _
  | ended => exact orderly

/-! ## A run -/

theorem orderly_initial (data : σ) : (initial data : Machine I σ ε α).Orderly none := by
  constructor
  · exact fun _ h => nomatch h
  · exact .nil
  · exact fun _ h => nomatch h
  · exact .nil
  · rintro id - ⟨t, ⟨⟩, -⟩
  · rintro id - ⟨t, ⟨⟩, -⟩
  · rintro id other - - ⟨t, ⟨⟩, -⟩

theorem Orderly.start (h : m.Orderly none) (plan : Plan I σ ε α) : (m.start plan).Orderly none := by
  have found_of {id : Nat} {t : Thread I σ ε α} (found : m.scene[id]? = some t) :
      (m.start plan).scene[id]? = some t := by
    rw [scene_start, List.getElem?_append_left (List.getElem?_eq_some_iff.1 found).1]
    exact found
  have serial_of {id : Nat} (serial : (m.start plan).Serial id) : m.Serial id := by
    obtain ⟨t, found, serial⟩ := serial
    rw [getElem?_scene, Option.map_eq_some_iff] at found
    obtain ⟨t, found, rfl⟩ := found
    rcases found_start_cases found with before | ⟨-, rfl⟩
    · exact ⟨_, getElem?_scene_of_found before, serial⟩
    · cases serial
  have called_of {id : Nat} (called : (m.start plan).Called id) : m.Called id := by
    obtain ⟨t, found, point, wake⟩ := called
    rcases found_start_cases found with before | ⟨-, rfl⟩
    · exact ⟨t, before, point, wake⟩
    · cases point
  constructor
  · intro id hid
    obtain ⟨hne, t, mode, found, point⟩ := h.asleep id hid
    exact ⟨hne, t, mode, found_of found, point⟩
  · exact h.sleepers_nodup
  · intro id hid
    obtain ⟨hne, t, found, point⟩ := h.queued id hid
    exact ⟨hne, t, found_of found, point⟩
  · exact h.queue_nodup
  · exact fun id hne called => h.called id hne (called_of called)
  · exact fun id hne serial => h.serial id hne (serial_of serial)
  · exact fun i j hi hj serial serial' => h.unique i j hi hj (serial_of serial) (serial_of serial')

/-- **A move leaves the waiting tasks orderly.** -/
theorem Orderly.step {move : Move I σ ε α} (h : m.Orderly none) (settled : m.Settled)
    (goes : Step m move wrote last) : last.Orderly none := by
  cases goes with
  | start => exact h.start _
  | @turn id t _ _ _ found goes =>
    have h' : (m.pick id).Orderly none := h.frame rfl rfl rfl
    exact goes.orderly h' found (settled.placed t.still (mem_scene found))
  | nobody => exact h.frame rfl rfl rfl
  | unready => exact h
  | cancel => exact h.of_core (m.core_cancel _) fun _ => called_cancel
  | tell => exact h.of_core (m.core_tell _ _) fun _ => called_tell
  | @reply id world under _ question next _ _ _ _ found _ goes =>
    have running : m.Running id false (next (world.answer question)) :=
      h.running_of_point (getElem?_scene_of_found found) (by simp [Thread.still])
        (by simp [Thread.still])
    exact goes.orderly (running.handBack under) (getElem?_scene_handBack_of_found found under)
  | @delay id world under _ question next told serial turns found =>
    have found' := getElem?_scene_of_found found
    have running : m.Running id false (next (world.answer question)) :=
      h.running_of_point found' (by simp [Thread.still]) (by simp [Thread.still])
    exact running.orderly.awaitAnswer running.keeps _ _ _
  | unasked => exact h

/-- **The waiting tasks are orderly after every list of moves**: never are two tasks in the
turnstile, and a task that has been called finds nobody in it. -/
theorem orderly_after (data : σ) (moves : List (Move I σ ε α)) :
    ((initial data).after moves).Settled ∧ ((initial data).after moves).Orderly none := by
  induction moves using List.reverseRecOn with
  | nil => exact ⟨settled_initial data, orderly_initial data⟩
  | append_singleton moves move ih =>
    rw [after_concat]
    obtain ⟨wrote, goes⟩ := ih.1.exists_step move
    exact ⟨ih.1.step goes, ih.2.step ih.1 goes⟩

end

end Machine

end SignedOrders.Tasks
