import SignedOrders.Proofs.Tasks.Alone
import SignedOrders.Proofs.Tasks.Rest
import SignedOrders.Proofs.Tasks.Wakeup

/-!
# A lock in no hurry

Tasks ask for the lock one after another, are told to give it back, or are cancelled, and nothing
more is asked before all has come to rest (`unhurried`).  Tasks are numbered by their arrival.

The log is to show that nobody overtakes a writer (`InOrder`), and what it tells of a task that
has come to rest is true (`Logged`).  A task that runs keeps both for the others, and has to answer
only for itself (`Registered`).  When it gives the lock back or withdraws, the counts of the lock
change, and all sleepers are woken or none is (`Recounts`).
-/

namespace SignedOrders.Tasks

variable {I : Interface} {σ ε α : Type}

/-- What is asked of a lock. -/
inductive Demand (ε : Type) where
  /-- A new task asks for the lock, to hold it until told. -/
  | request (mode : Mode)
  /-- A task is told to give the lock back, at once or as soon as it has it, and how to end. -/
  | release (id : Nat) (told : Outcome ε Unit)
  /-- A task is cancelled, while it waits or while it holds the lock. -/
  | cancel (id : Nat)

/-- How a new task wants to hold the lock. -/
def Demand.mode? : Demand ε → Option Mode
  | .request mode => some mode
  | _ => none

/-- How tasks want to hold the lock, in the order of their arrival. -/
def arrivals (demands : List (Demand ε)) : List Mode := demands.filterMap Demand.mode?

/-- A task has had the lock, or was cancelled. -/
def Served (log : List (Nat × Notice ε α)) (id : Nat) : Prop :=
  (id, .acquired) ∈ log ∨ (id, .ended .cancelled) ∈ log

/-- No task acquires the lock before a writer that came earlier, but for writers that were
cancelled. -/
def InOrder (modes : List Mode) (log : List (Nat × Notice ε α)) : Prop :=
  ∀ before id after, log = before ++ (id, .acquired) :: after →
    ∀ writer < id, modes[writer]? = some .exclusive → Served before writer

/-- What the log tells of a task that has come to rest: nothing of one that waits, and the truth
of the others. -/
def Logged (log : List (Nat × Notice ε α)) (id : Nat) : Point ε α → Prop
  | .asleep _ => ∀ notice, (id, notice) ∉ log
  | .inside _ => (id, .acquired) ∈ log
  | .ended outcome => (id, .ended outcome) ∈ log ∧ Served log id
  | _ => False

/-- Where a task is that takes the lock and holds it until told, after its first turn. -/
inductive Stance (mode : Mode) (t : Thread I σ ε Unit) : Prop where
  | asleep (plan : t.plan = .occupy mode) (point : t.point = .asleep mode)
      (wake : t.wake = .pending ∨ t.wake = .granted)
  | inside (plan : t.plan = .occupy mode) (point : t.point = .inside mode) (untold : t.told = none)
  | ended {outcome} (point : t.point = .ended outcome)

theorem Stance.stays {mode : Mode} {t t' : Thread I σ ε Unit} (h : Stance mode t)
    (stays : t.Stays t') : Stance mode t' := by
  cases h with
  | asleep plan point wake =>
    refine .asleep (stays.plan.trans plan) (stays.point.trans point) ?_
    rcases stays.wake with same | ⟨-, granted⟩
    · rwa [same]
    · exact .inr granted
  | inside plan point untold =>
    exact .inside (stays.plan.trans plan) (stays.point.trans point) (stays.told.trans untold)
  | ended point => exact .ended (stays.point.trans point)

/-! ## Logs -/

section

variable {log : List (Nat × Notice ε α)} {modes : List Mode} {id : Nat}

theorem Served.append (h : Served log id) (later : List (Nat × Notice ε α)) :
    Served (log ++ later) id :=
  h.imp (List.mem_append_left _) (List.mem_append_left _)

theorem inOrder_nil (modes : List Mode) : InOrder modes ([] : List (Nat × Notice ε α)) := by
  intro before id after split
  simp at split

/-- A log goes on in order if a task that acquires the lock is preceded by the earlier writers. -/
theorem InOrder.concat (h : InOrder modes log) {notice : Notice ε α}
    (first : notice = .acquired →
      ∀ writer < id, modes[writer]? = some .exclusive → Served log writer) :
    InOrder modes (log ++ [(id, notice)]) := by
  intro before i after split
  rcases List.eq_nil_or_concat after with rfl | ⟨after, last, rfl⟩
  · obtain ⟨rfl, same⟩ := List.append_inj' split rfl
    cases same
    exact first rfl
  · have split : log ++ [(id, notice)] = (before ++ (i, .acquired) :: after) ++ [last] := by
      simpa using split
    obtain ⟨rfl, -⟩ := List.append_inj' split rfl
    exact h before i after rfl

/-- A task that comes later does not matter for what has happened. -/
theorem InOrder.arrive (h : InOrder modes log)
    (known : ∀ i notice, (i, notice) ∈ log → i < modes.length) (mode : Mode) :
    InOrder (modes ++ [mode]) log := by
  intro before i after split writer earlier exclusive
  have present : i < modes.length := by
    refine known i .acquired ?_
    rw [split]
    exact List.mem_append_right _ List.mem_cons_self
  rw [List.getElem?_append_left (by omega)] at exclusive
  exact h before i after split writer earlier exclusive

theorem Logged.concat {point : Point ε α} {other : Nat} (h : Logged log id point)
    (hne : id ≠ other) (notice : Notice ε α) : Logged (log ++ [(other, notice)]) id point := by
  cases point with
  | asleep =>
    intro heard mem
    rcases List.mem_append.1 mem with mem | mem
    · exact h heard mem
    · cases List.mem_singleton.1 mem
      exact hne rfl
  | inside => exact List.mem_append_left _ h
  | ended => exact ⟨List.mem_append_left _ h.1, h.2.append _⟩
  | _ => exact h.elim

end

namespace Machine

/-- The machine when something has been asked of the lock. -/
def meet (m : Machine I σ ε Unit) : Demand ε → Machine I σ ε Unit
  | .request mode => m.start (.occupy mode)
  | .release id told => m.tell id told
  | .cancel id => m.cancel id

/-- What is asked of the lock is followed until nothing can move.  In the time that it takes a
task to look at the lock, no more tasks are woken than there are. -/
def attend (world : World I) (m : Machine I σ ε Unit) (demand : Demand ε) : Machine I σ ε Unit :=
  let m := m.meet demand
  settle world ((m.threads.length + 1) * (m.threads.length + 1)) m

/-- The machine after all that was asked of the lock, each demand followed until nothing could
move before the next. -/
def unhurried (world : World I) (data : σ) (demands : List (Demand ε)) : Machine I σ ε Unit :=
  demands.foldl (attend world) (initial data)

/-- The counts of the lock change, and its sleepers are woken or not. -/
inductive Recounts (m : Machine I σ ε α) : Machine I σ ε α → Prop where
  | still (readers writing writersWaiting) : Recounts m { m with readers, writing, writersWaiting }
  | awaken (readers writing writersWaiting) :
      Recounts m { m with readers, writing, writersWaiting }.awakenSleepers

/-- Each task, but the one that runs, is where the log tells. -/
structure Registered (m : Machine I σ ε Unit) (modes : List Mode) (runs : Option Nat) : Prop where
  length : m.threads.length = modes.length
  stance : ∀ i t, runs ≠ some i → m.threads[i]? = some t →
    ∃ mode, modes[i]? = some mode ∧ Stance mode t
  logged : ∀ i t, runs ≠ some i → m.threads[i]? = some t → Logged m.log i t.point
  known : ∀ i notice, (i, notice) ∈ m.log → i < modes.length
  fair : InOrder modes m.log

section

variable {m last : Machine I σ ε α} {id i : Nat}

/-! ## What a task does to the lists -/

theorem Stirs.length_eq (h : Stirs id m last) :
    last.threads.length = m.threads.length := by
  induction h with
  | refl => rfl
  | frame _ threads _ _ ih => rw [threads, ih]
  | own _ f ih => rw [length_modify, ih]
  | @awaken m' i _ _ ih => rw [← length_scene, scene_of_core (m'.core_awaken i), length_scene, ih]

/-- A task stays while another one runs, or there is no such task. -/
theorem Stirs.found_cases (h : Stirs id m last) (other : i ≠ id) :
    (m.threads[i]? = none ∧ last.threads[i]? = none) ∨
      ∃ t t', m.threads[i]? = some t ∧ last.threads[i]? = some t' ∧ t.Stays t' := by
  cases found : m.threads[i]? with
  | none =>
    have absent := List.getElem?_eq_none_iff.1 found
    exact .inl ⟨rfl, List.getElem?_eq_none_iff.2 (h.length_eq ▸ absent)⟩
  | some t =>
    obtain ⟨t', found', stays⟩ := h.exists_stays other found
    exact .inr ⟨t, t', rfl, found', stays⟩

theorem Stirs.toldOf_eq (h : Stirs id m last) (other : i ≠ id) : last.toldOf i = m.toldOf i := by
  unfold toldOf
  obtain ⟨absent, absent'⟩ | ⟨t, t', found, found', stays⟩ := h.found_cases other
  · rw [absent, absent']
  · rw [found, found']
    exact stays.told

theorem Stirs.pointOf?_eq (h : Stirs id m last) (other : i ≠ id) :
    last.pointOf? i = m.pointOf? i := by
  unfold pointOf?
  obtain ⟨absent, absent'⟩ | ⟨t, t', found, found', stays⟩ := h.found_cases other
  · rw [absent, absent']
  · rw [found, found', Option.map_some, Option.map_some, stays.point]

/-- A task that ends where nobody waits at the turnstile changes no list. -/
theorem lists_vacate (queue : m.turnstile.queue = []) (id : Nat) :
    (m.vacate id).threads = m.threads ∧ (m.vacate id).ready = m.ready ∧
      (m.vacate id).sleepers = m.sleepers ∧ (m.vacate id).log = m.log := by
  have left : m.leaveDoor .turnstile = m.setPassage .turnstile ⟨false, []⟩ := by
    show (m.setPassage .turnstile ⟨false, m.turnstile.queue⟩).callNext .turnstile = _
    rw [queue]
    rfl
  unfold vacate
  split
  · rw [left]
    exact ⟨rfl, rfl, rfl, rfl⟩
  · exact ⟨rfl, rfl, rfl, rfl⟩

theorem lists_retire (queue : m.turnstile.queue = []) (id : Nat)
    (outcome : Outcome ε α) :
    (m.retire id outcome).ready = m.ready ∧ (m.retire id outcome).sleepers = m.sleepers ∧
      (m.retire id outcome).log = m.log ++ [(id, .ended outcome)] := by
  obtain ⟨-, ready, sleepers, log⟩ := lists_vacate queue id
  refine ⟨ready, sleepers, ?_⟩
  show (m.vacate id).log ++ _ = _
  rw [log]

theorem stirs_retire (queue : m.turnstile.queue = []) (id : Nat)
    (outcome : Outcome ε α) : Stirs id m (m.retire id outcome) := by
  have vacated : Stirs id m (m.vacate id) := stirs_vacate fun i hi => by simp [queue] at hi
  exact (vacated.own _).frame rfl rfl fun _ _ hi => hi

/-! ## The lock wakes its sleepers -/

theorem log_foldl_awaken (m : Machine I σ ε α) (ids : List Nat) :
    (ids.foldl awaken m).log = m.log := by
  induction ids generalizing m with
  | nil => rfl
  | cons id ids ih =>
    rw [List.foldl_cons, ih]
    unfold awaken
    split <;> rfl

theorem wakeOf_congr (same : last.threads[id]? = m.threads[id]?) :
    last.wakeOf id = m.wakeOf id := by
  rw [wakeOf, wakeOf, same]

/-- Those that wait are woken in their order. -/
theorem ready_foldl_awaken {ids : List Nat} (distinct : ids.Nodup) :
    (ids.foldl awaken m).ready = m.ready ++ ids.filter fun i => m.wakeOf i = .pending := by
  induction ids generalizing m with
  | nil => exact (List.append_nil _).symm
  | cons i ids ih =>
    obtain ⟨new, distinct⟩ := List.nodup_cons.1 distinct
    have later : ids.filter (fun j => (m.awaken i).wakeOf j = .pending) =
        ids.filter fun j => m.wakeOf j = .pending := by
      refine List.filter_congr fun j hj => ?_
      have other : j ≠ i := fun same => new (same ▸ hj)
      have same : (m.awaken i).threads[j]? = m.threads[j]? := by simp [getElem?_awaken, other]
      rw [wakeOf_congr same]
    rw [List.foldl_cons, ih distinct, later, List.filter_cons]
    unfold awaken
    split
    · next pending => simp [pending]
    · next awake => simp [awake]

theorem recounts_release (m : Machine I σ ε α) (mode : Mode) : m.Recounts (m.release mode) := by
  cases mode with
  | shared =>
    unfold release
    dsimp only
    split
    · exact .awaken (m.readers - 1) m.writing m.writersWaiting
    · exact .still (m.readers - 1) m.writing m.writersWaiting
  | exclusive => exact .awaken m.readers false m.writersWaiting

theorem recounts_withdraw (m : Machine I σ ε α) (mode : Mode) : m.Recounts (m.withdraw mode) := by
  cases mode with
  | shared => exact .still m.readers m.writing m.writersWaiting
  | exclusive => exact .awaken m.readers m.writing (m.writersWaiting - 1)

theorem Recounts.log (h : m.Recounts last) : last.log = m.log := by
  cases h with
  | still => rfl
  | awaken => exact log_foldl_awaken _ _

theorem Recounts.sleepers (h : m.Recounts last) : last.sleepers = m.sleepers := by
  cases h with
  | still => rfl
  | awaken => exact (sleepers_of_core (core_awakenSleepers _)).trans rfl

theorem Recounts.turnstile (h : m.Recounts last) : last.turnstile = m.turnstile := by
  cases h with
  | still => rfl
  | awaken => exact (turnstile_of_core (core_awakenSleepers _)).trans rfl

theorem Recounts.scene (h : m.Recounts last) : last.scene = m.scene := by
  cases h with
  | still => rfl
  | awaken => exact (scene_of_core (core_awakenSleepers _)).trans rfl

theorem Recounts.stirs (h : m.Recounts last) (away : id ∉ m.sleepers) : Stirs id m last := by
  cases h with
  | still => exact stirs_lists rfl rfl rfl
  | awaken readers writing writersWaiting =>
    have counted : Stirs id m { m with readers, writing, writersWaiting } := stirs_lists rfl rfl rfl
    exact counted.trans (stirs_foldl_awaken fun i hi hid => away (hid ▸ hi))

/-- All sleepers are ready if they are woken. -/
theorem Recounts.ready (h : m.Recounts last) (distinct : m.sleepers.Nodup) (again : List Nat)
    (line : m.sleepers = m.ready ++ again) (awake : ∀ i ∈ m.ready, m.wakeOf i ≠ .pending)
    (pending : ∀ i ∈ again, m.wakeOf i = .pending) :
    last.ready = m.ready ∨ last.ready = m.sleepers := by
  cases h with
  | still => exact .inl rfl
  | awaken =>
    right
    have woken : m.sleepers.filter (fun i => m.wakeOf i = .pending) = again := by
      rw [line, List.filter_append, List.filter_eq_nil_iff.2 (by simpa using awake),
        List.filter_eq_self.2 (by simpa using pending), List.nil_append]
    refine (ready_foldl_awaken distinct).trans ?_
    show m.ready ++ m.sleepers.filter (fun i => m.wakeOf i = .pending) = m.sleepers
    rw [woken, line]

end

section

variable {m last : Machine I σ ε Unit} {modes : List Mode} {id : Nat} {mode : Mode}
  {t : Thread I σ ε Unit} {runs : Option Nat} {how : Outcome ε Unit}

/-! ## Tasks that are registered -/

theorem Registered.exists_stance (h : m.Registered modes none) (found : m.threads[id]? = some t) :
    ∃ mode, modes[id]? = some mode ∧ Stance mode t :=
  h.stance id t nofun found

theorem Registered.logged_of_found (h : m.Registered modes none)
    (found : m.threads[id]? = some t) : Logged m.log id t.point :=
  h.logged id t nofun found

/-- A task that holds the lock at rest has not been told to give it back. -/
theorem Registered.inside (h : m.Registered modes none) (found : m.threads[id]? = some t)
    (point : t.point = .inside mode) : t.plan = .occupy mode ∧ t.told = none := by
  obtain ⟨_, -, stance⟩ := h.exists_stance found
  cases stance with
  | inside plan point' untold =>
    cases point.symm.trans point'
    exact ⟨plan, untold⟩
  | asleep _ asleep => cases point.symm.trans asleep
  | ended ended => cases point.symm.trans ended

theorem Registered.leave (h : m.Registered modes none) (id : Nat) :
    m.Registered modes (some id) :=
  ⟨h.length, fun _ _ _ => h.exists_stance, fun _ _ _ => h.logged_of_found, h.known, h.fair⟩

theorem Registered.congr (h : m.Registered modes runs) (threads : last.threads = m.threads)
    (log : last.log = m.log) : last.Registered modes runs := by
  obtain ⟨h₁, h₂, h₃, h₄, h₅⟩ := h
  exact ⟨threads ▸ h₁, threads ▸ h₂, threads ▸ log ▸ h₃, log ▸ h₄, log ▸ h₅⟩

/-- A task that runs leaves the others registered as long as it tells nothing. -/
theorem Registered.stirs (h : m.Registered modes (some id)) (stirs : Stirs id m last)
    (log : last.log = m.log) : last.Registered modes (some id) := by
  have stayed {i : Nat} {t : Thread I σ ε Unit} (waits : some id ≠ some i)
      (found : last.threads[i]? = some t) : ∃ u, m.threads[i]? = some u ∧ u.Stays t :=
    stirs.stays (runs_ne_iff.1 waits) found
  constructor
  · exact stirs.length_eq.trans h.length
  · intro i t waits found
    obtain ⟨u, found, stays⟩ := stayed waits found
    obtain ⟨mode, mine, stance⟩ := h.stance i u waits found
    exact ⟨mode, mine, stance.stays stays⟩
  · intro i t waits found
    obtain ⟨u, found, stays⟩ := stayed waits found
    rw [log, stays.point]
    exact h.logged i u waits found
  · rw [log]
    exact h.known
  · rw [log]
    exact h.fair

/-- A task that runs is heard of. -/
theorem Registered.report (h : m.Registered modes (some id)) (present : id < modes.length)
    (notice : Notice ε Unit)
    (first : notice = .acquired →
      ∀ writer < id, modes[writer]? = some .exclusive → Served m.log writer) :
    (m.report id notice).Registered modes (some id) := by
  refine ⟨h.length, h.stance, fun i t waits found => ?_, fun i heard mem => ?_,
    h.fair.concat first⟩
  · exact (h.logged i t waits found).concat (runs_ne_iff.1 waits) notice
  · rcases List.mem_append.1 mem with mem | mem
    · exact h.known i heard mem
    · cases List.mem_singleton.1 mem
      exact present

/-- A task that has run is registered like the others. -/
theorem Registered.settle (h : m.Registered modes (some id)) (mine : modes[id]? = some mode)
    (own : ∀ t, m.threads[id]? = some t → Stance mode t ∧ Logged m.log id t.point) :
    m.Registered modes none := by
  refine ⟨h.length, fun i t _ found => ?_, fun i t _ found => ?_, h.known, h.fair⟩
  · by_cases hid : i = id
    · subst hid
      exact ⟨mode, mine, (own t found).1⟩
    · exact h.stance i t (runs_ne_iff.2 hid) found
  · by_cases hid : i = id
    · subst hid
      exact (own t found).2
    · exact h.logged i t (runs_ne_iff.2 hid) found

/-- A task that ends has had the lock, or was cancelled before. -/
theorem Registered.retire (h : m.Registered modes (some id)) (queue : m.turnstile.queue = [])
    (mine : modes[id]? = some mode) (served : how = .cancelled ∨ Served m.log id) :
    (m.retire id how).Registered modes none := by
  obtain ⟨threads, -, -, log⟩ := lists_vacate queue id
  have ended := (h.congr threads log).stirs (.own .refl fun t =>
    { t with plan := .finish how, point := .ended how, wake := .granted, serial := false }) rfl
  have told := ended.report (List.getElem?_eq_some_iff.1 mine).1 (.ended how) nofun
  rw [retire_eq_vacate]
  refine told.settle mine fun t found => ?_
  have found := (getElem?_modify_self _ id _).symm.trans found
  obtain ⟨u, -, rfl⟩ := Option.map_eq_some_iff.1 found
  have mem : (id, .ended how) ∈ (m.vacate id).log ++ [(id, Notice.ended how)] :=
    List.mem_append_right _ (List.mem_singleton.2 rfl)
  refine ⟨.ended rfl, mem, ?_⟩
  rcases served with rfl | before
  · exact .inr mem
  · exact Served.append (log ▸ before) _

end

end Machine

end SignedOrders.Tasks
