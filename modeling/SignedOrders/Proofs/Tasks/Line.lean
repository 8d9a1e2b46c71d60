import SignedOrders.Proofs.Tasks.Unhurried

/-!
# The line of those that wait

All sleepers are woken at once, and each looks at the lock in its turn (`Looks`): it goes in, or
it falls asleep again behind the others.  No writer loses its place by this (`Line`).  While the
sleepers look, those that are still to look stand at the head of the list and those that have
looked again at its end, and whoever has looked again came before the writers that are still to
look.  When all have looked, the list is in order as it was (`InLine.run`, `InLine.settle`).

A sleeper that is admitted finds that all writers that came earlier have been served.  One that
has looked again and still waits would be refused, and keeps out all others (`InLine.served`).

A task that was told to give the lock back while it waited does so in the turn in which it takes
it, and wakes the sleepers once more.  The writers keep their places all the same, since none of
those that have looked again is a writer then, but readers get behind others that came later.
Where no such task waits, all of the line is in the order of arrival (`InTurn`).
-/

namespace SignedOrders.Tasks

variable {I : Interface} {σ ε α : Type}

/-- The second of two tasks does not have to go in before the first: it reads, or it came later. -/
def Yields (modes : List Mode) (i j : Nat) : Prop := modes[j]? = some .exclusive → i < j

namespace Machine

/-- A task has the lock, and does not have to be told again to give it back. -/
def seize (m : Machine I σ ε α) (id : Nat) (mode : Mode) : Machine I σ ε α :=
  ((m.take mode).report id .acquired).untell id

/-- A task looks at the lock.  It falls asleep, or it goes in; then it stays, or it gives the lock
back at once if it has been told to. -/
inductive Looks (id : Nat) (mode : Mode) (m : Machine I σ ε Unit) : Machine I σ ε Unit → Prop where
  | sleeps (busy : m.admits mode = false) : Looks id mode m (m.sleep id mode (.occupy mode))
  | stays (free : m.admits mode = true) (untold : m.toldOf id = none) :
      Looks id mode m
        (((m.take mode).report id .acquired).park id (.inside mode) (.occupy mode))
  | leaves {told} (free : m.admits mode = true) (heard : m.toldOf id = some told) :
      Looks id mode m (((m.seize id mode).release mode).retire id told)

/-- Sleepers that are to look stand before those that have looked again, but by `before` they
come after these. -/
def Line (m : Machine I σ ε α) (before : Nat → Nat → Prop) : Prop :=
  ∃ again, m.sleepers = m.ready ++ again ∧ (again ++ m.ready).Pairwise before

/-- What holds while the sleepers look, one after another. -/
structure InLine (m : Machine I σ ε Unit) (modes : List Mode) : Prop where
  steady : m.Steady
  registered : m.Registered modes none
  line : m.Line (Yields modes)

/-- No sleeper has been told to give the lock back, and the line is in the order of arrival. -/
structure InTurn (m : Machine I σ ε Unit) : Prop where
  line : m.Line (· < ·)
  untold : ∀ i ∈ m.sleepers, m.toldOf i = none

/-- A task is about to look at the lock, and the others are in line. -/
structure Facing (m : Machine I σ ε Unit) (modes : List Mode) (id : Nat) (mode : Mode) :
    Prop where
  registered : m.Registered modes (some id)
  mine : modes[id]? = some mode
  unheard : ∀ notice, (id, notice) ∉ m.log
  first : m.admits mode = true →
    ∀ writer < id, modes[writer]? = some .exclusive → Served m.log writer
  away : id ∉ m.sleepers
  distinct : m.sleepers.Nodup
  awake : ∀ i ∈ m.ready, m.wakeOf i ≠ .pending
  pending : ∀ i ∈ m.sleepers, i ∉ m.ready → m.wakeOf i = .pending
  queue : m.turnstile.queue = []

/-- The number of sleepers that will give the lock back as soon as they have it. -/
def urgent (m : Machine I σ ε α) : Nat := m.sleepers.countP fun i => (m.toldOf i).isSome

section

variable {m last : Machine I σ ε Unit} {modes : List Mode} {id i x w : Nat} {mode : Mode}
  {t : Thread I σ ε Unit} {rest again : List Nat} {world : World I}
  {before : Nat → Nat → Prop}

/-! ## A task that looks -/

theorem sleepers_seize (m : Machine I σ ε α) (id : Nat) (mode : Mode) :
    (m.seize id mode).sleepers = m.sleepers := by
  cases mode <;> rfl

theorem ready_seize (m : Machine I σ ε α) (id : Nat) (mode : Mode) :
    (m.seize id mode).ready = m.ready := by
  cases mode <;> rfl

theorem turnstile_seize (m : Machine I σ ε α) (id : Nat) (mode : Mode) :
    (m.seize id mode).turnstile = m.turnstile := by
  cases mode <;> rfl

theorem wakeOf_seize (m : Machine I σ ε α) (mode : Mode) (other : i ≠ id) :
    (m.seize id mode).wakeOf i = m.wakeOf i := by
  refine wakeOf_congr ((getElem?_modify_of_ne _ other _).trans ?_)
  cases mode <;> rfl

theorem stirs_seize (m : Machine I σ ε α) (id : Nat) (mode : Mode) :
    Stirs id m (m.seize id mode) :=
  ((stirs_take m id mode).trans (stirs_report _ id .acquired)).own _

theorem stirs_list (m : Machine I σ ε α) (id : Nat) :
    Stirs id m { m with sleepers := m.sleepers ++ [id] } :=
  .frame .refl rfl rfl fun _ _ hi => List.mem_append_left _ hi

/-- A task that has taken the lock in its turn stays, or gives it back if it has been told to. -/
theorem looks_follow (gate : m.gate = ⟨false, []⟩) (free : m.admits mode = true) :
    Looks id mode m ((m.take mode).follow id true (.occupy mode)) := by
  have told_take : (m.take mode).toldOf id = m.toldOf id := by cases mode <;> rfl
  have gate_seize : (m.seize id mode).gate = ⟨false, []⟩ := by cases mode <;> exact gate
  rw [Plan.occupy, follow]
  simp only [if_true]
  rw [show ((m.take mode).report id .acquired).toldOf id = m.toldOf id from told_take]
  cases heard : m.toldOf id with
  | none => exact .stays free heard
  | some told =>
    dsimp only
    rw [show ((m.take mode).report id .acquired).untell id = m.seize id mode from rfl,
      letGo_eq id mode gate_seize]
    exact .leaves free heard

theorem Facing.away_seize (h : m.Facing modes id mode) : id ∉ (m.seize id mode).sleepers := by
  rw [sleepers_seize]
  exact h.away

theorem Facing.queue_release (h : m.Facing modes id mode) :
    ((m.seize id mode).release mode).turnstile.queue = [] := by
  rw [turnstile_release, turnstile_seize]
  exact h.queue

/-- A task that looks and gives the lock back at once wakes all sleepers, or none. -/
theorem Facing.lists_leaves (h : m.Facing modes id mode) (line : m.sleepers = m.ready ++ again)
    (told : Outcome ε Unit) :
    let last := ((m.seize id mode).release mode).retire id told
    last.sleepers = m.sleepers ∧ (last.ready = m.ready ∨ last.ready = m.sleepers) := by
  have recounts := recounts_release (m.seize id mode) mode
  have same {i : Nat} (sleeps : i ∈ m.sleepers) : (m.seize id mode).wakeOf i = m.wakeOf i :=
    m.wakeOf_seize mode fun hid => h.away (hid ▸ sleeps)
  have apart : ∀ i ∈ again, i ∉ m.ready := by
    intro i hi ready
    have distinct := h.distinct
    rw [line] at distinct
    exact List.disjoint_of_nodup_append distinct ready hi
  obtain ⟨ready, sleepers, -⟩ := lists_retire h.queue_release id told
  dsimp only
  rw [ready, sleepers, recounts.sleepers, ← ready_seize m id mode, ← sleepers_seize m id mode]
  refine ⟨rfl, recounts.ready ?_ again ?_ ?_ ?_⟩
  · rw [sleepers_seize]
    exact h.distinct
  · rw [sleepers_seize, ready_seize, line]
  · intro i hi
    rw [ready_seize] at hi
    rw [same (line ▸ List.mem_append_left _ hi)]
    exact h.awake i hi
  · intro i hi
    have sleeps : i ∈ m.sleepers := line ▸ List.mem_append_right _ hi
    rw [same sleeps]
    exact h.pending i sleeps (apart i hi)

/-- **A task that looks goes to its place in the line**, or leaves the line as it was. -/
theorem Looks.line (h : Looks id mode m last) (facing : m.Facing modes id mode)
    (line : m.sleepers = m.ready ++ again) (sorted : (again ++ id :: m.ready).Pairwise before)
    (cross : m.admits mode = true → m.toldOf id ≠ none →
      ∀ i ∈ m.ready, ∀ j ∈ again, before i j) : last.Line before := by
  have fewer : (again ++ m.ready).Sublist (again ++ id :: m.ready) :=
    (List.Sublist.refl again).append (List.sublist_cons_self id m.ready)
  cases h with
  | sleeps =>
    refine ⟨again ++ [id], ?_, ?_⟩
    · show m.sleepers ++ [id] = m.ready ++ (again ++ [id])
      rw [line, List.append_assoc]
    · show (again ++ [id] ++ m.ready).Pairwise before
      rwa [List.append_assoc]
  | stays =>
    refine ⟨again, ?_, ?_⟩
    · cases mode <;> exact line
    · cases mode <;> exact sorted.sublist fewer
  | leaves free heard =>
    obtain ⟨sleepers, none_woken | all_woken⟩ := facing.lists_leaves line _
    · exact ⟨again, by rw [sleepers, none_woken, line],
        by rw [none_woken]; exact sorted.sublist fewer⟩
    -- those that have looked again are to look once more, after the others
    · refine ⟨[], by rw [sleepers, all_woken, List.append_nil], ?_⟩
      rw [all_woken, line, List.nil_append]
      obtain ⟨looked, look, -⟩ := List.pairwise_append.1 (sorted.sublist fewer)
      refine List.pairwise_append.2 ⟨look, looked, cross free ?_⟩
      rw [heard]
      nofun

theorem Looks.stirs (h : Looks id mode m last) (facing : m.Facing modes id mode) :
    Stirs id m last := by
  cases h with
  | sleeps => exact (m.stirs_list id).own _
  | stays => exact ((stirs_take m id mode).trans (stirs_report _ id .acquired)).own _
  | leaves =>
    have given := (recounts_release (m.seize id mode) mode).stirs facing.away_seize
    exact ((m.stirs_seize id mode).trans given).trans (stirs_retire facing.queue_release id _)

/-- **A task that looks is registered where it goes**, and goes in only after the writers that
came earlier. -/
theorem Looks.registered (h : Looks id mode m last) (facing : m.Facing modes id mode) :
    last.Registered modes none := by
  have log_take : (m.take mode).log = m.log := by cases mode <;> rfl
  have taken : (m.take mode).Registered modes (some id) := by
    cases mode <;> exact facing.registered.congr rfl rfl
  have acquired (free : m.admits mode = true) :
      ((m.take mode).report id .acquired).Registered modes (some id) :=
    taken.report (List.getElem?_eq_some_iff.1 facing.mine).1 .acquired
      fun _ => log_take ▸ facing.first free
  have mem : (id, .acquired) ∈ ((m.take mode).report id .acquired).log :=
    List.mem_append_right _ (List.mem_singleton.2 rfl)
  cases h with
  | sleeps =>
    have slept : (m.sleep id mode (.occupy mode)).Registered modes (some id) :=
      facing.registered.stirs ((m.stirs_list id).own _) rfl
    refine slept.settle facing.mine fun t found => ?_
    rw [Machine.sleep, park, getElem?_modify_self, Option.map_eq_some_iff] at found
    obtain ⟨u, -, rfl⟩ := found
    exact ⟨.asleep rfl rfl (.inl rfl), facing.unheard⟩
  | stays free untold =>
    have entered : (((m.take mode).report id .acquired).park id (.inside mode)
        (.occupy mode)).Registered modes (some id) := (acquired free).stirs (Stirs.refl.own _) rfl
    refine entered.settle facing.mine fun t found => ?_
    rw [park, getElem?_modify_self, Option.map_eq_some_iff] at found
    obtain ⟨u, found, rfl⟩ := found
    have threads : (m.take mode).threads = m.threads := by cases mode <;> rfl
    have found : m.threads[id]? = some u := threads ▸ found
    have told : u.told = none := by rwa [toldOf, found, Option.bind_some] at untold
    exact ⟨.inside rfl rfl told, mem⟩
  | leaves free =>
    have recounts := recounts_release (m.seize id mode) mode
    have seized : (m.seize id mode).Registered modes (some id) :=
      (acquired free).stirs (Stirs.refl.own _) rfl
    have given := seized.stirs (recounts.stirs facing.away_seize) recounts.log
    refine given.retire facing.queue_release facing.mine (.inr (.inl ?_))
    rw [recounts.log]
    exact mem

/-! ## Sleepers -/

/-- A sleeper is registered as one that waits. -/
theorem InLine.exists_sleeper (h : m.InLine modes) (sleeps : x ∈ m.sleepers) :
    ∃ mode t, modes[x]? = some mode ∧ m.threads[x]? = some t ∧ t.plan = .occupy mode ∧
      t.point = .asleep mode ∧ (t.wake = .pending ∨ t.wake = .granted) := by
  obtain ⟨-, u, mode, found, point⟩ := h.steady.orderly.asleep x sleeps
  rw [getElem?_scene, Option.map_eq_some_iff] at found
  obtain ⟨t, found, rfl⟩ := found
  have point : t.point = .asleep mode := point
  obtain ⟨mode', mine, stance⟩ := h.registered.exists_stance found
  cases stance with
  | asleep plan point wake => exact ⟨mode', t, mine, found, plan, point, wake⟩
  | inside _ point' => cases point.symm.trans point'
  | ended point' => cases point.symm.trans point'

/-- A task that is not ready has not been woken, unless it has ended. -/
theorem Steady.pending (h : m.Steady) (found : m.threads[id]? = some t)
    (going : ∀ outcome, t.point ≠ .ended outcome) (away : id ∉ m.ready) : t.wake = .pending := by
  by_contra awake
  exact away (h.alert.booked.awake id t nofun found awake going)

theorem InLine.wakeOf_sleeper (h : m.InLine modes) (sleeps : x ∈ m.sleepers)
    (away : x ∉ m.ready) : m.wakeOf x = .pending := by
  obtain ⟨_, t, -, found, -, point, -⟩ := h.exists_sleeper sleeps
  rw [wakeOf_of_found found]
  exact h.steady.pending found (fun outcome ended => nomatch point.symm.trans ended) away

theorem Booked.wakeOf_ready {m : Machine I σ ε α} {runs : Option Nat} (h : m.Booked runs)
    (ready : x ∈ m.ready) : m.wakeOf x ≠ .pending := by
  obtain ⟨-, t, found, awake⟩ := h.ready x ready
  rwa [wakeOf_of_found found]

/-- Nobody goes to the turnstile. -/
theorem InLine.queue_eq_nil (h : m.InLine modes) : m.turnstile.queue = [] := by
  refine h.steady.orderly.queue_eq_nil fun i t _ found door => ?_
  rw [getElem?_scene, Option.map_eq_some_iff] at found
  obtain ⟨u, found, rfl⟩ := found
  have logged := h.registered.logged_of_found found
  rw [show u.point = .atTurnstile from door] at logged
  exact logged

/-- A writer that waits and has not been woken keeps out all others. -/
theorem Steady.barred (h : m.Steady) (found : m.threads[w]? = some t)
    (asleep : t.point = .asleep .exclusive) (away : w ∉ m.ready) (mode : Mode) :
    m.admits mode = false := by
  cases mode with
  | exclusive =>
    refine h.alert.refused w t .exclusive nofun found asleep (h.pending found ?_ away)
    exact fun outcome ended => nomatch asleep.symm.trans ended
  | shared =>
    refine Bool.eq_false_iff.2 fun free => ?_
    obtain ⟨-, unsought⟩ := h.guarded.tally.exact.of_still.admits_iff.1 free
    have sought := List.countP_eq_zero.1 unsought t (List.mem_of_getElem? found)
    simp [asleep, Point.sought?] at sought

/-- **Writers that are not woken have been served** when the lock admits anybody. -/
theorem InLine.served (h : m.InLine modes) (free : m.admits mode = true) (away : w ∉ m.ready)
    (writes : modes[w]? = some .exclusive) : Served m.log w := by
  have present : w < m.threads.length :=
    h.registered.length ▸ (List.getElem?_eq_some_iff.1 writes).1
  obtain ⟨t, found⟩ := (⟨_, List.getElem?_eq_getElem present⟩ : ∃ t, m.threads[w]? = some t)
  obtain ⟨mode', mine, stance⟩ := h.registered.exists_stance found
  cases writes.symm.trans mine
  have logged := h.registered.logged_of_found found
  cases stance with
  | asleep _ point => cases free.symm.trans (h.steady.barred found point away mode)
  | inside _ point =>
    rw [point] at logged
    exact .inl logged
  | ended point =>
    rw [point] at logged
    exact logged.2

/-! ## The sleepers look -/

theorem Steady.run (h : m.Steady) : m.run.Steady := by
  cases ready : m.ready with
  | nil => rwa [Machine.run, ready]
  | cons x rest =>
    rw [m.run_eq_move ready]
    exact h.after [.turn x] (by simp)

/-- A sleeper that runs looks at the lock. -/
theorem InLine.looks (h : m.InLine modes) (ready : m.ready = x :: rest)
    (mine : modes[x]? = some mode) : Looks x mode ((m.pick x).rise x) m.run := by
  obtain ⟨again, sleepers, -⟩ := h.line
  have runs : x ∈ m.ready := ready ▸ List.mem_cons_self
  have sleeps : x ∈ m.sleepers := sleepers ▸ List.mem_append_left _ runs
  obtain ⟨mode', t, mine', found, plan, point, wake⟩ := h.exists_sleeper sleeps
  cases mine.symm.trans mine'
  obtain ⟨-, u, found', awake⟩ := h.steady.alert.booked.ready x runs
  cases found.symm.trans found'
  have called : (t.wake == .granted) = true := by rw [wake.resolve_left awake]; rfl
  have gate : ((m.pick x).rise x).gate = ⟨false, []⟩ := h.steady.guarded.settled.gate
  rw [m.run_eq_move ready, Machine.move, if_pos runs, resume,
    show (m.pick x).threads[x]? = some t from found]
  dsimp only
  rw [point, called]
  show Looks x mode _ (((m.pick x).rise x).goBack mode x false t.plan)
  rw [goBack_eq x mode gate, plan, if_neg Bool.false_ne_true]
  split
  · next free => exact looks_follow gate free
  · next busy => exact .sleeps (Bool.eq_false_iff.2 busy)

theorem InLine.facing (h : m.InLine modes) (ready : m.ready = x :: rest)
    (mine : modes[x]? = some mode) : ((m.pick x).rise x).Facing modes x mode := by
  obtain ⟨again, sleepers, sorted⟩ := h.line
  have runs : x ∈ m.ready := ready ▸ List.mem_cons_self
  obtain ⟨_, t, mine', found, -, point, -⟩ :=
    h.exists_sleeper (sleepers ▸ List.mem_append_left _ runs)
  have distinct := h.steady.orderly.sleepers_nodup
  have risen {i : Nat} : i ∈ m.sleepers.erase x ↔ i ≠ x ∧ i ∈ m.sleepers := distinct.mem_erase_iff
  have unready {i : Nat} : i ∈ m.ready.erase x ↔ i ≠ x ∧ i ∈ m.ready :=
    h.steady.alert.booked.nodup.mem_erase_iff
  constructor
  case registered => exact (h.registered.leave x).congr rfl rfl
  case mine => exact mine
  case unheard =>
    have logged := h.registered.logged_of_found found
    rwa [point] at logged
  case first =>
    intro free w earlier writes
    have free : m.admits mode = true := by cases mode <;> exact free
    refine h.served free (fun later => ?_) writes
    rw [ready] at later
    -- a writer that is still to look came later
    rcases List.mem_cons.1 later with rfl | later
    · exact Nat.lt_irrefl w earlier
    · rw [ready] at sorted
      have look := (List.pairwise_append.1 sorted).2.1
      exact Nat.lt_asymm earlier ((List.pairwise_cons.1 look).1 w later writes)
  case away => exact fun hx => (risen.1 hx).1 rfl
  case distinct => exact distinct.erase x
  case awake => exact fun i hi => h.steady.alert.booked.wakeOf_ready (unready.1 hi).2
  case pending =>
    intro i hi away
    obtain ⟨other, sleeps⟩ := risen.1 hi
    exact h.wakeOf_sleeper sleeps fun ready => away (unready.2 ⟨other, ready⟩)
  case queue => exact h.queue_eq_nil

/-- The line when the first task that is ready has left it to look at the lock. -/
theorem Line.rise (h : m.Line before) (ready : m.ready = x :: rest) :
    ∃ again, ((m.pick x).rise x).ready = rest ∧ ((m.pick x).rise x).sleepers = rest ++ again ∧
      m.sleepers = x :: (rest ++ again) ∧ (again ++ x :: rest).Pairwise before := by
  obtain ⟨again, sleepers, sorted⟩ := h
  rw [ready] at sleepers sorted
  refine ⟨again, ?_, ?_, sleepers, sorted⟩
  · show m.ready.erase x = rest
    rw [ready, List.erase_cons_head]
  · show m.sleepers.erase x = rest ++ again
    rw [sleepers, List.cons_append, List.erase_cons_head]

/-- **A sleeper looks, and the writers keep their places.** -/
theorem InLine.run (h : m.InLine modes) (ready : m.ready = x :: rest) : m.run.InLine modes := by
  obtain ⟨again, ready', risen, sleepers, sorted⟩ := h.line.rise ready
  have sleeps : x ∈ m.sleepers := sleepers ▸ List.mem_cons_self
  obtain ⟨mode, _, mine, -⟩ := h.exists_sleeper sleeps
  have facing := h.facing ready mine
  refine ⟨h.steady.run, (h.looks ready mine).registered facing,
    (h.looks ready mine).line facing (ready' ▸ risen) (ready' ▸ sorted) ?_⟩
  -- nobody is admitted while a writer that has looked again waits
  intro free _ i _ j hj writes
  have free : m.admits mode = true := by cases mode <;> exact free
  have sleeps : j ∈ m.sleepers := by simp [sleepers, hj]
  obtain ⟨_, t, mine, found, -, point, -⟩ := h.exists_sleeper sleeps
  cases writes.symm.trans mine
  have distinct := h.steady.orderly.sleepers_nodup
  rw [sleepers] at distinct
  have away : j ∉ m.ready := by
    rw [ready]
    intro look
    rw [← List.cons_append] at distinct
    exact List.disjoint_of_nodup_append distinct look hj
  cases free.symm.trans (h.steady.barred found point away mode)

/-! ## Until nothing can move -/

theorem toldOf_park (m : Machine I σ ε α) (id i : Nat) (point : Point ε α) (plan : Plan I σ ε α) :
    (m.park id point plan).toldOf i = m.toldOf i := by
  unfold toldOf park
  by_cases hid : i = id
  · subst hid
    rw [getElem?_modify_self]
    cases m.threads[i]? <;> rfl
  · rw [getElem?_modify_of_ne _ hid]

/-- A task that falls asleep again has still to do what it was told, and one that has done so may
have woken all. -/
theorem Looks.urgent_le {n : Nat} (h : Looks id mode m last) (facing : m.Facing modes id mode)
    (few : last.ready.length ≤ n) :
    last.urgent * (n + 1) + last.ready.length ≤
      (m.urgent + if (m.toldOf id).isSome then 1 else 0) * (n + 1) + m.ready.length := by
  have others : m.sleepers.countP (fun i => (last.toldOf i).isSome) = m.urgent := by
    refine List.countP_congr fun i sleeps => ?_
    rw [(h.stirs facing).toldOf_eq fun hid => facing.away (hid ▸ sleeps)]
  have sleepers_leaves (told : Outcome ε Unit) :
      (((m.seize id mode).release mode).retire id told).sleepers = m.sleepers := by
    rw [(lists_retire facing.queue_release id told).2.1,
      (recounts_release (m.seize id mode) mode).sleepers, sleepers_seize]
  cases h with
  | sleeps =>
    have same : (m.sleep id mode (.occupy mode)).urgent =
        m.urgent + if (m.toldOf id).isSome then 1 else 0 := by
      rw [urgent, show (m.sleep id mode (.occupy mode)).sleepers = m.sleepers ++ [id] from rfl,
        List.countP_append, others, List.countP_singleton, Machine.sleep, toldOf_park]
      rfl
    rw [same]
    exact Nat.le_refl _
  | stays =>
    have sleepers : (((m.take mode).report id .acquired).park id (.inside mode)
        (.occupy mode)).sleepers = m.sleepers := by cases mode <;> rfl
    have ready : (((m.take mode).report id .acquired).park id (.inside mode)
        (.occupy mode)).ready = m.ready := by cases mode <;> rfl
    rw [urgent, sleepers, others, ready]
    exact Nat.add_le_add_right (Nat.mul_le_mul_right _ (Nat.le_add_right ..)) _
  | leaves free heard =>
    rw [urgent, sleepers_leaves, others, heard, Option.isSome_some, if_pos rfl, Nat.add_mul,
      Nat.one_mul]
    omega

theorem InLine.length_ready_le (h : m.InLine modes) : m.ready.length ≤ modes.length := by
  have within : m.ready ⊆ List.range modes.length := by
    intro i hi
    obtain ⟨-, t, found, -⟩ := h.steady.alert.booked.ready i hi
    exact List.mem_range.2 (h.registered.length ▸ (List.getElem?_eq_some_iff.1 found).1)
  simpa using (List.subperm_of_subset h.steady.alert.booked.nodup within).length_le

theorem InLine.urgent_le (h : m.InLine modes) : m.urgent ≤ modes.length := by
  have within : m.sleepers ⊆ List.range modes.length := by
    intro i hi
    obtain ⟨_, t, -, found, -⟩ := h.exists_sleeper hi
    exact List.mem_range.2 (h.registered.length ▸ (List.getElem?_eq_some_iff.1 found).1)
  have few := (List.subperm_of_subset h.steady.orderly.sleepers_nodup within).length_le
  exact Nat.le_trans List.countP_le_length (by simpa using few)

/-- With each turn there is less to do. -/
theorem InLine.urgent_run (h : m.InLine modes) (ready : m.ready = x :: rest) :
    m.run.urgent * (modes.length + 1) + m.run.ready.length <
      m.urgent * (modes.length + 1) + m.ready.length := by
  obtain ⟨again, ready', risen, sleepers, -⟩ := h.line.rise ready
  obtain ⟨mode, _, mine, -⟩ := h.exists_sleeper (sleepers ▸ List.mem_cons_self)
  have le := (h.looks ready mine).urgent_le (h.facing ready mine) (h.run ready).length_ready_le
  have counted : ((m.pick x).rise x).urgent + (if (m.toldOf x).isSome then 1 else 0) =
      m.urgent := by
    rw [urgent, urgent, risen, sleepers, List.countP_cons]
    rfl
  rw [show ((m.pick x).rise x).toldOf x = m.toldOf x from rfl, counted, ready'] at le
  rw [ready, List.length_cons]
  omega

theorem asker?_eq_none {m : Machine I σ ε α}
    (silent : ∀ t ∈ m.scene, ∀ under, t.point ≠ .asking under) : m.asker? = none := by
  rw [asker?_eq_find?, List.find?_eq_none]
  intro id _
  cases found : m.threads[id]? with
  | none => exact Bool.false_ne_true
  | some t =>
    have away := silent t.still (mem_scene found)
    obtain ⟨plan, point, wake, told, serial⟩ := t
    cases point with
    | asking under => exact absurd rfl (away under)
    | _ => exact Bool.false_ne_true

theorem Registered.silent (h : m.Registered modes none) :
    ∀ t ∈ m.scene, ∀ under, t.point ≠ .asking under := by
  intro t ht under asking
  obtain ⟨u, hu, rfl⟩ := List.mem_map.1 ht
  obtain ⟨i, found⟩ := List.getElem?_of_mem hu
  have logged := h.logged_of_found found
  rw [show u.point = .asking under from asking] at logged
  exact logged

/-- **All that are woken look**, until nothing can move. -/
theorem InLine.settle {fuel : Nat} (h : m.InLine modes)
    (enough : m.urgent * (modes.length + 1) + m.ready.length ≤ fuel) :
    (settle world fuel m).InLine modes ∧ (settle world fuel m).ready = [] := by
  induction fuel generalizing m with
  | zero =>
    have rest : m.ready.length = 0 := by omega
    exact ⟨h, List.eq_nil_of_length_eq_zero rest⟩
  | succ fuel ih =>
    rw [Machine.settle, asker?_eq_none h.registered.silent]
    dsimp only
    cases ready : m.ready with
    | nil => exact ⟨h, ready⟩
    | cons x rest =>
      have less := h.urgent_run ready
      exact ih (h.run ready) (by omega)

/-! ## In the order of arrival -/

/-- One that has not been told to give the lock back is not told so by looking. -/
theorem Looks.sleepers_untold (h : Looks id mode m last) (untold : m.toldOf id = none) :
    ∀ i ∈ last.sleepers, (i ∈ m.sleepers ∨ i = id) ∧ last.toldOf i = m.toldOf i := by
  intro i hi
  cases h with
  | sleeps =>
    refine ⟨?_, toldOf_park ..⟩
    exact (List.mem_append.1 hi).imp_right List.mem_singleton.1
  | stays =>
    rw [toldOf_park]
    cases mode <;> exact ⟨.inl hi, rfl⟩
  | leaves free heard => cases untold.symm.trans heard

/-- **A sleeper looks, and all keep their places** if none has been told to give the lock back. -/
theorem InTurn.run (turn : m.InTurn) (h : m.InLine modes) (ready : m.ready = x :: rest) :
    m.run.InTurn := by
  obtain ⟨again, ready', risen, sleepers, sorted⟩ := turn.line.rise ready
  have sleeps : x ∈ m.sleepers := sleepers ▸ List.mem_cons_self
  have untold : ((m.pick x).rise x).toldOf x = none := turn.untold x sleeps
  obtain ⟨mode, _, mine, -⟩ := h.exists_sleeper sleeps
  have looks := h.looks ready mine
  refine ⟨looks.line (h.facing ready mine) (ready' ▸ risen) (ready' ▸ sorted)
    fun _ told => absurd untold told, fun i hi => ?_⟩
  obtain ⟨older | rfl, same⟩ := looks.sleepers_untold untold i hi
  · rw [same]
    exact turn.untold i (List.mem_of_mem_erase older)
  · rw [same, untold]

theorem InTurn.settle {fuel : Nat} (turn : m.InTurn) (h : m.InLine modes) :
    (settle world fuel m).InTurn := by
  induction fuel generalizing m with
  | zero => exact turn
  | succ fuel ih =>
    rw [Machine.settle, asker?_eq_none h.registered.silent]
    dsimp only
    cases ready : m.ready with
    | nil => exact turn
    | cons x rest => exact ih (turn.run h ready) (h.run ready)

end

end Machine

end SignedOrders.Tasks
