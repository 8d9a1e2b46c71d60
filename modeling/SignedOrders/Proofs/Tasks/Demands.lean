import SignedOrders.Proofs.Tasks.Line

/-!
# What is asked of a lock

A new task looks at the lock in its first turn, and joins the line if it is refused
(`InLine.start`).  A task that holds the lock and is told to give it back, or a task that is
cancelled inside or asleep, ends in its next turn (`Ends`).  It leaves the lock or the line, and
all sleepers have then been woken or none has (`Departs`).  All else that is asked moves nobody
(`InLine.meet_cases`).

So the line is in order after each demand when all have looked (`InLine.attend`), and with it the
log (`inLine_unhurried`).  When no task is told to give back a lock for which it still waits, the
readers keep their places as well (`inTurn_unhurried`).
-/

namespace SignedOrders.Tasks

variable {I : Interface} {σ ε α : Type}

namespace Machine

/-- A demand makes a task end: it gives the lock back, or it is cancelled inside or asleep. -/
inductive Ends (m : Machine I σ ε Unit) : Demand ε → Nat → Outcome ε Unit → Prop where
  | release {id mode told} (inside : m.pointOf? id = some (.inside mode)) :
      Ends m (.release id told) id told
  | cancel {id mode}
      (going : m.pointOf? id = some (.inside mode) ∨ m.pointOf? id = some (.asleep mode)) :
      Ends m (.cancel id) id .cancelled

/-- A task has left the lock or the line, and the sleepers have been woken or not. -/
structure Departs (m : Machine I σ ε Unit) (id : Nat) (last : Machine I σ ε Unit) : Prop where
  stirs : Stirs id m last
  log : last.log = m.log
  sleepers : last.sleepers = m.sleepers.erase id
  ready : last.ready = [] ∨ last.ready = last.sleepers
  queue : last.turnstile.queue = []
  others : last.others id = m.others id

/-- A demand does not tell a task to give back a lock for which it still waits. -/
def Timely (m : Machine I σ ε Unit) : Demand ε → Prop
  | .release id _ => ∀ mode, m.pointOf? id ≠ some (.asleep mode)
  | _ => True

/-- No task is told to give back a lock for which it still waits: it would do so in the turn in
which it takes the lock, before all others have come to rest. -/
def Punctual (world : World I) (data : σ) (demands : List (Demand ε)) : Prop :=
  ∀ before demand after, demands = before ++ demand :: after →
    (unhurried world data before).Timely demand

section

variable {m last : Machine I σ ε Unit} {modes : List Mode} {id x : Nat} {mode : Mode}
  {t : Thread I σ ε Unit} {demand : Demand ε} {how : Outcome ε Unit} {world : World I}
  {before : Nat → Nat → Prop}

/-! ## A task departs -/

/-- A task leaves the lock or the line at rest. -/
theorem InLine.departs (h : m.InLine modes) (rest : m.ready = [])
    (f : Thread I σ ε Unit → Thread I σ ε Unit)
    (recounts : Recounts ((m.modify id f).rise id) last) : m.Departs id last := by
  have distinct := h.steady.orderly.sleepers_nodup
  have left {i : Nat} (hi : i ∈ m.sleepers.erase id) : i ≠ id ∧ i ∈ m.sleepers :=
    distinct.mem_erase_iff.1 hi
  have risen : Stirs id m ((m.modify id f).rise id) :=
    (Stirs.refl.own f).trans ((m.modify id f).stirs_rise id)
  have woken : last.ready = m.ready ∨ last.ready = m.sleepers.erase id := by
    refine recounts.ready (distinct.erase id) (m.sleepers.erase id) ?_ ?_ ?_
    · show m.sleepers.erase id = m.ready ++ _
      rw [rest, List.nil_append]
    · exact fun i hi => nomatch (rest ▸ hi : i ∈ [])
    -- the others have waited undisturbed
    · intro i hi
      obtain ⟨other, sleeps⟩ := left hi
      refine (wakeOf_congr (m.getElem?_modify_of_ne other f)).trans (h.wakeOf_sleeper sleeps ?_)
      rw [rest]
      exact List.not_mem_nil
  constructor
  case stirs => exact risen.trans (recounts.stirs fun hi => (left hi).1 rfl)
  case log => exact recounts.log
  case sleepers => exact recounts.sleepers
  case ready =>
    rw [recounts.sleepers]
    exact woken.imp_left fun same => same.trans rest
  case queue =>
    rw [recounts.turnstile]
    exact h.queue_eq_nil
  case others =>
    unfold Machine.others
    rw [recounts.scene]
    exact others_modify ..

theorem exists_of_pointOf? {m : Machine I σ ε α} {point : Point ε α}
    (stands : m.pointOf? id = some point) : ∃ t, m.threads[id]? = some t ∧ t.point = point :=
  Option.map_eq_some_iff.1 stands

theorem Ends.exists_found (h : m.Ends demand id how) : ∃ t, m.threads[id]? = some t := by
  obtain ⟨point, stands⟩ : ∃ point, m.pointOf? id = some point := by
    cases h with
    | release inside => exact ⟨_, inside⟩
    | cancel going => exact going.elim (fun inside => ⟨_, inside⟩) fun asleep => ⟨_, asleep⟩
  obtain ⟨t, found, -⟩ := exists_of_pointOf? stands
  exact ⟨t, found⟩

theorem pointOf?_tell (m : Machine I σ ε α) (id : Nat) (told : Outcome ε Unit) :
    (m.modify id fun t => { t with told := t.told.or (some told) }).pointOf? id =
      m.pointOf? id := by
  rw [pointOf?, pointOf?, getElem?_modify_self, Option.map_map]
  rfl

/-- A task that holds the lock is told, and is ready. -/
theorem tell_eq (found : m.threads[id]? = some t) (point : t.point = .inside mode)
    (pending : t.wake = .pending) (told : Outcome ε Unit) :
    m.tell id told =
      { m.modify id fun t => { t with told := t.told.or (some told), wake := .granted } with
        ready := m.ready ++ [id] } := by
  have informed : (m.modify id fun t => { t with told := t.told.or (some told) }).threads[id]? =
      some { t with told := t.told.or (some told) } :=
    (m.getElem?_modify_self id _).trans (congrArg _ found)
  have inside : m.pointOf? id = some (.inside mode) := by
    rw [pointOf?, found, Option.map_some, point]
  rw [tell, pointOf?_tell, inside]
  dsimp only
  rw [awaken, if_pos ((wakeOf_of_found informed).trans pending)]
  unfold modify
  rw [List.modify_modify_eq]
  rfl

/-- A task that does not hold the lock is told, and stays where it is. -/
theorem tell_outside (outside : ∀ mode, m.pointOf? id ≠ some (.inside mode))
    (told : Outcome ε Unit) :
    m.tell id told = m.modify id fun t => { t with told := t.told.or (some told) } := by
  rw [tell, pointOf?_tell]
  split
  · next inside => exact absurd inside (outside _)
  · rfl

/-- A task that waits is cancelled, and is ready. -/
theorem cancel_eq (found : m.threads[id]? = some t) (pending : t.wake = .pending)
    (going : ∀ outcome, t.point ≠ .ended outcome) :
    m.cancel id =
      { m.modify id fun t => { t with wake := .cancelled } with ready := m.ready ++ [id] } := by
  rw [cancel, found]
  dsimp only
  rw [pending]
  cases point : t.point with
  | ended outcome => exact absurd point (going outcome)
  | _ => rfl

/-- The only task that is ready runs. -/
theorem run_called (rest : m.ready = []) (f : Thread I σ ε Unit → Thread I σ ε Unit) :
    Machine.run { m.modify id f with ready := m.ready ++ [id] } = (m.modify id f).resume id := by
  obtain ⟨data, readers, writing, writersWaiting, sleepers, gate, turnstile, threads, ready,
    log⟩ := m
  cases rest
  rfl

theorem resume_inside (gate : m.gate = ⟨false, []⟩) (found : m.threads[id]? = some t)
    (plan : t.plan = .occupy mode) (point : t.point = .inside mode) :
    m.resume id = ((m.untell id).release mode).retire id
      (if t.wake == .granted then t.told.getD .cancelled else .cancelled) := by
  have gate : (m.untell id).gate = ⟨false, []⟩ := gate
  rw [resume, found]
  dsimp only
  rw [point, plan]
  dsimp only
  rw [departWith, letGo_eq id mode gate]
  rfl

theorem resume_cancelled (gate : m.gate = ⟨false, []⟩) (found : m.threads[id]? = some t)
    (point : t.point = .asleep mode) (wake : t.wake = .cancelled) :
    m.resume id = ((m.rise id).withdraw mode).retire id .cancelled := by
  have gate : (m.rise id).gate = ⟨false, []⟩ := gate
  rw [resume, found]
  dsimp only
  rw [point, wake]
  show (m.rise id).goBack mode id true t.plan = _
  rw [goBack_eq id mode gate, if_pos rfl]

/-- A task that holds the lock at rest gives it back and ends, as it is told or cancelled. -/
theorem InLine.departs_inside (h : m.InLine modes) (rest : m.ready = [])
    (found : m.threads[id]? = some t) (point : t.point = .inside mode)
    (f : Thread I σ ε Unit → Thread I σ ε Unit) (plan' : (f t).plan = t.plan)
    (point' : (f t).point = t.point) :
    ∃ last, m.Departs id last ∧ (m.modify id f).resume id = last.retire id
      (if (f t).wake == .granted then (f t).told.getD .cancelled else .cancelled) := by
  obtain ⟨plan, -⟩ := h.registered.inside found point
  have own : (m.modify id f).threads[id]? = some (f t) :=
    (m.getElem?_modify_self id f).trans (congrArg _ found)
  have awake : id ∉ m.sleepers := by
    intro sleeps
    obtain ⟨_, u, -, found', -, asleep, -⟩ := h.exists_sleeper sleeps
    cases found.symm.trans found'
    cases point.symm.trans asleep
  -- who holds the lock is not in the line
  have untold : (m.modify id f).untell id =
      (m.modify id ((fun u => { u with told := none }) ∘ f)).rise id := by
    unfold untell rise modify
    rw [List.modify_modify_eq, List.erase_of_not_mem awake]
  refine ⟨((m.modify id f).untell id).release mode, ?_,
    resume_inside h.steady.guarded.settled.gate own (plan'.trans plan) (point'.trans point)⟩
  rw [untold]
  exact h.departs rest _ (recounts_release _ mode)

theorem Ends.scene_meet (h : m.Ends demand id how) : (m.meet demand).scene = m.scene := by
  cases h with
  | release => exact scene_of_core (m.core_tell id how)
  | cancel => exact scene_of_core (m.core_cancel id)

/-- A task that ends has had the lock, or is cancelled. -/
theorem InLine.served_of_ends (h : m.InLine modes) (ends : m.Ends demand id how) :
    how = .cancelled ∨ Served m.log id := by
  cases ends with
  | cancel => exact .inl rfl
  | release inside =>
    obtain ⟨t, found, point⟩ := exists_of_pointOf? inside
    have logged := h.registered.logged_of_found found
    rw [point] at logged
    exact .inr (.inl logged)

/-- A task that is cancelled at rest gives the lock back, or no longer wants it. -/
theorem InLine.departs_cancelled (h : m.InLine modes) (rest : m.ready = [])
    (found : m.threads[id]? = some t)
    (going : t.point = .inside mode ∨ t.point = .asleep mode) :
    ∃ last, m.Departs id last ∧
      (m.modify id fun u => { u with wake := .cancelled }).resume id =
        last.retire id .cancelled := by
  rcases going with point | point
  · exact h.departs_inside rest found point (fun u => { u with wake := .cancelled }) rfl rfl
  · have own : (m.modify id fun u => { u with wake := .cancelled }).threads[id]? =
        some { t with wake := .cancelled } :=
      (m.getElem?_modify_self id _).trans (congrArg _ found)
    exact ⟨_, h.departs rest (fun u => { u with wake := .cancelled }) (recounts_withdraw _ mode),
      resume_cancelled h.steady.guarded.settled.gate own point rfl⟩

/-- **A task that ends departs** from the lock or the line. -/
theorem InLine.exists_departs (h : m.InLine modes) (rest : m.ready = [])
    (ends : m.Ends demand id how) :
    (m.meet demand).ready ≠ [] ∧
      ∃ last, m.Departs id last ∧ (m.meet demand).run = last.retire id how := by
  have away : id ∉ m.ready := rest ▸ List.not_mem_nil
  have called : m.ready ++ [id] ≠ [] := by simp
  cases ends with
  | release inside =>
    obtain ⟨t, found, point⟩ := exists_of_pointOf? inside
    have going : ∀ outcome, t.point ≠ .ended outcome :=
      fun outcome ended => nomatch point.symm.trans ended
    obtain ⟨-, untold⟩ := h.registered.inside found point
    have meet := tell_eq found point (h.steady.pending found going away) how
    obtain ⟨last, departs, resumed⟩ := h.departs_inside rest found point
      (fun u => { u with told := u.told.or (some how), wake := .granted }) rfl rfl
    rw [Machine.meet, meet, run_called rest, resumed, untold]
    exact ⟨called, last, departs, rfl⟩
  | @cancel _ mode stands =>
    obtain ⟨t, found, point⟩ : ∃ t, m.threads[id]? = some t ∧
        (t.point = .inside mode ∨ t.point = .asleep mode) := by
      rcases stands with inside | asleep
      · obtain ⟨t, found, point⟩ := exists_of_pointOf? inside
        exact ⟨t, found, .inl point⟩
      · obtain ⟨t, found, point⟩ := exists_of_pointOf? asleep
        exact ⟨t, found, .inr point⟩
    have going : ∀ outcome, t.point ≠ .ended outcome := by
      rcases point with point | point
      all_goals exact fun outcome ended => nomatch point.symm.trans ended
    have meet := cancel_eq found (h.steady.pending found going away) going
    rw [Machine.meet, meet, run_called rest]
    exact ⟨called, h.departs_cancelled rest found point⟩

/-- At rest the sleepers are in order. -/
theorem Line.sorted (h : m.Line before) (rest : m.ready = []) : m.sleepers.Pairwise before := by
  obtain ⟨again, sleepers, sorted⟩ := h
  rw [rest, List.nil_append] at sleepers
  rwa [rest, List.append_nil, ← sleepers] at sorted

/-- The line is in order when a task has ended: the others wait as they did, or all are woken. -/
theorem Line.retire (h : m.Line before) (rest : m.ready = []) (departs : m.Departs id last) :
    (last.retire id how).Line before := by
  have sorted : last.sleepers.Pairwise before :=
    departs.sleepers ▸ (h.sorted rest).sublist List.erase_sublist
  obtain ⟨ready, sleepers, -⟩ := lists_retire departs.queue id how
  unfold Line
  rw [ready, sleepers]
  rcases departs.ready with none_woken | all_woken
  · exact ⟨last.sleepers, by rw [none_woken, List.nil_append],
      by rwa [none_woken, List.append_nil]⟩
  · exact ⟨[], by rw [all_woken, List.append_nil], by rwa [all_woken, List.nil_append]⟩

theorem InTurn.retire (h : m.InTurn) (rest : m.ready = []) (distinct : m.sleepers.Nodup)
    (departs : m.Departs id last) : (last.retire id how).InTurn := by
  refine ⟨h.line.retire rest departs, fun i hi => ?_⟩
  rw [(lists_retire departs.queue id how).2.1, departs.sleepers, distinct.mem_erase_iff] at hi
  obtain ⟨other, sleeps⟩ := hi
  rw [(departs.stirs.trans (stirs_retire departs.queue id how)).toldOf_eq other]
  exact h.untold i sleeps

/-! ## A task comes -/

theorem Steady.meet (h : m.Steady) (demand : Demand ε) : (m.meet demand).Steady := by
  cases demand with
  | request mode =>
    refine h.after [.start (.occupy mode)] fun plan hplan => ?_
    cases List.mem_singleton.1 hplan
    exact fun _ => trivial
  | release id told => exact h.after [.tell id told] (by simp)
  | cancel id => exact h.after [.cancel id] (by simp)

/-- A new task comes after all that have been registered. -/
theorem Registered.start (h : m.Registered modes none) (mode : Mode) :
    (m.start (.occupy mode)).Registered (modes ++ [mode]) (some m.threads.length) := by
  have before {i : Nat} {t : Thread I σ ε Unit} (other : some m.threads.length ≠ some i)
      (found : (m.start (.occupy mode)).threads[i]? = some t) : m.threads[i]? = some t := by
    rcases found_start_cases found with found | ⟨rfl, -⟩
    · exact found
    · exact absurd rfl other
  constructor
  · show (m.threads ++ [_]).length = _
    rw [List.length_append, List.length_append, h.length]
    rfl
  · intro i t other found
    obtain ⟨mode', mine, stance⟩ := h.exists_stance (before other found)
    have present := (List.getElem?_eq_some_iff.1 mine).1
    exact ⟨mode', (List.getElem?_append_left present).trans mine, stance⟩
  · exact fun i t other found => h.logged_of_found (before other found)
  · intro i notice mem
    have present := h.known i notice mem
    simp only [List.length_append, List.length_singleton]
    omega
  · exact h.fair.arrive h.known mode

/-- The machine in which a new task is about to look at the lock. -/
def greet (m : Machine I σ ε Unit) (mode : Mode) : Machine I σ ε Unit :=
  ((m.start (.occupy mode)).pick m.threads.length).arrive mode

theorem threads_greet (m : Machine I σ ε Unit) (mode : Mode) :
    (m.greet mode).threads = (m.start (.occupy mode)).threads := by
  cases mode <;> rfl

theorem sleepers_greet (m : Machine I σ ε Unit) (mode : Mode) :
    (m.greet mode).sleepers = m.sleepers := by
  cases mode <;> rfl

theorem log_greet (m : Machine I σ ε Unit) (mode : Mode) : (m.greet mode).log = m.log := by
  cases mode <;> rfl

theorem turnstile_greet (m : Machine I σ ε Unit) (mode : Mode) :
    (m.greet mode).turnstile = m.turnstile := by
  cases mode <;> rfl

theorem admits_greet (m : Machine I σ ε Unit) (mode : Mode) :
    (m.greet mode).admits mode = m.admits mode := by
  cases mode <;> rfl

theorem ready_greet (rest : m.ready = []) (mode : Mode) : (m.greet mode).ready = [] := by
  have called : (m.ready ++ [m.threads.length]).erase m.threads.length = [] := by
    rw [rest, List.nil_append, List.erase_cons_head]
  cases mode <;> exact called

/-- A new task looks at the lock in its first turn. -/
theorem looks_start (gate : m.gate = ⟨false, []⟩) (rest : m.ready = []) (mode : Mode) :
    Looks m.threads.length mode (m.greet mode) (m.start (.occupy mode)).run := by
  have ready : (m.start (.occupy mode)).ready = [m.threads.length] := by
    show m.ready ++ _ = _
    rw [rest, List.nil_append]
  have runs : m.threads.length ∈ (m.start (.occupy mode)).ready := ready ▸ List.mem_singleton.2 rfl
  have found : ((m.start (.occupy mode)).pick m.threads.length).threads[m.threads.length]? =
      some ⟨.occupy mode, .fresh, .granted, none, false⟩ := List.getElem?_concat_length
  have gate_pick : ((m.start (.occupy mode)).pick m.threads.length).gate = ⟨false, []⟩ := gate
  have gate_greet : (m.greet mode).gate = ⟨false, []⟩ := by cases mode <;> exact gate
  have wants : (Plan.occupy mode : Plan I σ ε Unit).wants? = some mode := rfl
  have admits : (m.greet mode).admits mode =
      ((m.start (.occupy mode)).pick m.threads.length).admits mode := by cases mode <;> rfl
  rw [(m.start (.occupy mode)).run_eq_move ready, Machine.move, if_pos runs, resume, found]
  dsimp only
  rw [beq_self_eq_true, if_pos rfl, follow_of_wants gate_pick wants, ← admits]
  split
  · next free => exact looks_follow gate_greet free
  · next busy => exact .sleeps (Bool.eq_false_iff.2 busy)

theorem InLine.facing_greet (h : m.InLine modes) (rest : m.ready = []) (mode : Mode) :
    (m.greet mode).Facing (modes ++ [mode]) m.threads.length mode := by
  have length := h.registered.length
  have unready {i : Nat} : i ∉ m.ready := rest ▸ List.not_mem_nil
  have present {i : Nat} (sleeps : i ∈ m.sleepers) : i < m.threads.length := by
    obtain ⟨_, t, -, found, -⟩ := h.exists_sleeper sleeps
    exact (List.getElem?_eq_some_iff.1 found).1
  constructor
  case registered => exact (h.registered.start mode).congr (m.threads_greet mode) (m.log_greet mode)
  case mine =>
    rw [length]
    exact List.getElem?_concat_length
  case unheard =>
    rw [log_greet]
    intro notice mem
    exact absurd (h.registered.known _ notice mem) (by omega)
  case first =>
    rw [admits_greet, log_greet]
    intro free writer earlier writes
    rw [List.getElem?_append_left (length ▸ earlier)] at writes
    exact h.served free unready writes
  case away =>
    rw [sleepers_greet]
    exact fun sleeps => Nat.lt_irrefl _ (present sleeps)
  case distinct =>
    rw [sleepers_greet]
    exact h.steady.orderly.sleepers_nodup
  case awake =>
    rw [ready_greet rest]
    exact fun _ hi => nomatch hi
  case pending =>
    rw [sleepers_greet]
    intro i sleeps _
    refine (wakeOf_congr ?_).trans (h.wakeOf_sleeper sleeps unready)
    rw [threads_greet]
    exact List.getElem?_append_left (present sleeps)
  case queue =>
    rw [turnstile_greet]
    exact h.queue_eq_nil

/-- The new task comes behind all that wait. -/
theorem InLine.line_start (h : m.InLine modes) (rest : m.ready = []) (mode : Mode)
    (line : m.Line before) (later : ∀ i, i < m.threads.length → before i m.threads.length) :
    (m.start (.occupy mode)).run.Line before := by
  have ready := ready_greet rest mode
  have waiting : (m.greet mode).sleepers = (m.greet mode).ready ++ m.sleepers := by
    rw [sleepers_greet, ready, List.nil_append]
  refine (looks_start h.steady.guarded.settled.gate rest mode).line (h.facing_greet rest mode)
    waiting ?_ ?_
  · rw [ready]
    refine List.pairwise_append.2
      ⟨line.sorted rest, List.pairwise_singleton _ _, fun i sleeps j hj => ?_⟩
    obtain ⟨_, t, -, found, -⟩ := h.exists_sleeper sleeps
    rw [List.mem_singleton.1 hj]
    exact later i (List.getElem?_eq_some_iff.1 found).1
  · rw [ready]
    exact fun _ _ _ hi => nomatch hi

/-- **A new task goes in or joins the line** behind all that wait. -/
theorem InLine.start (h : m.InLine modes) (rest : m.ready = []) (mode : Mode) :
    (m.start (.occupy mode)).run.InLine (modes ++ [mode]) := by
  have older : m.Line (Yields (modes ++ [mode])) := by
    obtain ⟨again, sleepers, sorted⟩ := h.line
    refine ⟨again, sleepers, sorted.imp_of_mem fun {i j} _ hj yields writes => yields ?_⟩
    have sleeps : j ∈ m.sleepers := by
      rw [sleepers]
      exact List.mem_append.2 (List.mem_append.1 hj).symm
    obtain ⟨_, t, mine, -⟩ := h.exists_sleeper sleeps
    rwa [List.getElem?_append_left (List.getElem?_eq_some_iff.1 mine).1] at writes
  refine ⟨(h.steady.meet (.request mode)).run, ?_, h.line_start rest mode older ?_⟩
  · exact (looks_start h.steady.guarded.settled.gate rest mode).registered
      (h.facing_greet rest mode)
  · exact fun i earlier _ => earlier

theorem InTurn.start (turn : m.InTurn) (h : m.InLine modes) (rest : m.ready = []) (mode : Mode) :
    (m.start (.occupy mode)).run.InTurn := by
  have found : (m.greet mode).threads[m.threads.length]? =
      some ⟨.occupy mode, .fresh, .granted, none, false⟩ := by
    rw [threads_greet]
    exact List.getElem?_concat_length
  have untold : (m.greet mode).toldOf m.threads.length = none := by
    rw [toldOf, found]
    rfl
  refine ⟨h.line_start rest mode turn.line fun _ earlier => earlier, fun i hi => ?_⟩
  have looks := looks_start h.steady.guarded.settled.gate rest mode
  obtain ⟨older | rfl, same⟩ := looks.sleepers_untold untold i hi
  · rw [sleepers_greet] at older
    obtain ⟨_, t, -, found, -⟩ := h.exists_sleeper older
    have before : (m.greet mode).threads[i]? = m.threads[i]? := by
      rw [threads_greet]
      exact List.getElem?_append_left (List.getElem?_eq_some_iff.1 found).1
    rw [same, toldOf, before]
    exact turn.untold i older
  · rw [same, untold]

/-! ## A task ends -/

/-- **When a task has ended, the others are in line.** -/
theorem InLine.retire (h : m.InLine modes) (rest : m.ready = []) (departs : m.Departs id last)
    (mine : modes[id]? = some mode) (served : how = .cancelled ∨ Served m.log id)
    (steady : (last.retire id how).Steady) : (last.retire id how).InLine modes := by
  have left : last.Registered modes (some id) :=
    (h.registered.leave id).stirs departs.stirs departs.log
  refine ⟨steady, left.retire departs.queue mine ?_, h.line.retire rest departs⟩
  rwa [departs.log]

/-! ## Nobody moves -/

/-- A task that does not hold the lock may be told anything. -/
theorem Registered.tell (h : m.Registered modes none)
    (outside : ∀ mode, m.pointOf? id ≠ some (.inside mode)) (told : Outcome ε Unit) :
    (m.modify id fun t => { t with told := t.told.or (some told) }).Registered modes none := by
  have own := (h.leave id).stirs
    (Stirs.refl.own fun t => { t with told := t.told.or (some told) }) rfl
  cases found : m.threads[id]? with
  | none =>
    have nobody : m.threads.length ≤ id := List.getElem?_eq_none_iff.1 found
    exact h.congr (List.modify_eq_self nobody) rfl
  | some t =>
    obtain ⟨mode, mine, stance⟩ := h.exists_stance found
    have logged := h.logged_of_found found
    refine own.settle mine fun t' found' => ?_
    rw [getElem?_modify_self, found] at found'
    cases found'
    refine ⟨?_, logged⟩
    cases stance with
    | asleep plan point wake => exact .asleep plan point wake
    | inside _ point =>
      refine absurd ?_ (outside mode)
      rw [pointOf?, found, Option.map_some, point]
    | ended point => exact .ended point

/-- **A task that waits can be told**, and nobody moves. -/
theorem InLine.tell (h : m.InLine modes) (outside : ∀ mode, m.pointOf? id ≠ some (.inside mode))
    (told : Outcome ε Unit) :
    (m.tell id told).InLine modes ∧ (m.tell id told).ready = m.ready ∧
      (m.InTurn → (∀ mode, m.pointOf? id ≠ some (.asleep mode)) → (m.tell id told).InTurn) := by
  have steady : (m.tell id told).Steady := h.steady.meet (.release id told)
  rw [tell_outside outside] at steady ⊢
  refine ⟨⟨steady, h.registered.tell outside told, h.line⟩, rfl,
    fun turn timely => ⟨turn.line, fun i sleeps => ?_⟩⟩
  have other : i ≠ id := by
    rintro rfl
    obtain ⟨mode, t, -, found, -, point, -⟩ := h.exists_sleeper sleeps
    refine timely mode ?_
    rw [pointOf?, found, Option.map_some, point]
  rw [toldOf, getElem?_modify_of_ne _ other]
  exact turn.untold i sleeps

/-- A task that is cancelled ends, unless it has ended. -/
theorem Registered.cancel_cases (h : m.Registered modes none) (id : Nat) :
    m.Ends (.cancel id) id .cancelled ∨ m.cancel id = m := by
  cases found : m.threads[id]? with
  | none =>
    rw [Machine.cancel, found]
    exact .inr rfl
  | some t =>
    have stands : m.pointOf? id = some t.point := by
      rw [pointOf?, found, Option.map_some]
    obtain ⟨mode, -, stance⟩ := h.exists_stance found
    cases stance with
    | asleep _ point => exact .inl (.cancel (.inr (stands.trans (congrArg some point))))
    | inside _ point => exact .inl (.cancel (.inl (stands.trans (congrArg some point))))
    | ended point =>
      rw [Machine.cancel, found]
      dsimp only
      rw [point]
      exact .inr rfl

/-- A task comes, or a task ends, or nobody moves. -/
theorem InLine.meet_cases (h : m.InLine modes) (demand : Demand ε) :
    (∃ mode, demand = .request mode) ∨ (∃ id how, m.Ends demand id how) ∨
      demand.mode? = none ∧ (m.meet demand).InLine modes ∧ (m.meet demand).ready = m.ready ∧
        (m.InTurn → m.Timely demand → (m.meet demand).InTurn) := by
  cases demand with
  | request mode => exact .inl ⟨mode, rfl⟩
  | release id told =>
    by_cases inside : ∃ mode, m.pointOf? id = some (.inside mode)
    · obtain ⟨mode, inside⟩ := inside
      exact .inr (.inl ⟨id, told, .release inside⟩)
    · exact .inr (.inr ⟨rfl, h.tell (not_exists.1 inside) told⟩)
  | cancel id =>
    rcases h.registered.cancel_cases id with ends | same
    · exact .inr (.inl ⟨id, .cancelled, ends⟩)
    · rw [show m.meet (.cancel id) = m from same]
      exact .inr (.inr ⟨rfl, h, rfl, fun turn _ => turn⟩)

/-! ## One demand after another -/

/-- Enough turns for all that are woken to look. -/
theorem InLine.enough (h : m.InLine modes) :
    m.urgent * (modes.length + 1) + m.ready.length ≤
      modes.length * (modes.length + 1) + modes.length :=
  Nat.add_le_add (Nat.mul_le_mul_right _ h.urgent_le) h.length_ready_le

/-- The first turn after a demand. -/
theorem attend_eq (ready : (m.meet demand).ready ≠ [])
    (silent : ∀ t ∈ (m.meet demand).scene, ∀ under, t.point ≠ .asking under)
    (length : (m.meet demand).threads.length = modes.length) :
    attend world m demand =
      Machine.settle world (modes.length * (modes.length + 1) + modes.length)
        (m.meet demand).run := by
  have unfolded : (modes.length + 1) * (modes.length + 1) =
      modes.length * (modes.length + 1) + modes.length + 1 := by
    rw [Nat.add_mul, Nat.one_mul, Nat.add_assoc]
  unfold attend
  dsimp only
  rw [length, unfolded, Machine.settle, asker?_eq_none silent]
  dsimp only
  rw [if_neg (by simpa using ready)]

theorem attend_request (h : m.InLine modes) (mode : Mode) :
    attend world m (.request mode) =
      Machine.settle world ((modes ++ [mode]).length * ((modes ++ [mode]).length + 1) +
        (modes ++ [mode]).length) (m.start (.occupy mode)).run := by
  refine attend_eq (List.append_ne_nil_of_right_ne_nil _ (List.cons_ne_nil _ [])) ?_ ?_
  · intro t ht
    rw [Machine.meet, scene_start, List.mem_append] at ht
    rcases ht with ht | ht
    · exact h.registered.silent t ht
    · rw [List.mem_singleton.1 ht]
      nofun
  · exact (h.registered.start mode).length

/-- A task that ends is the first to run, and then those that it has woken. -/
theorem InLine.attend_ends (world : World I) (h : m.InLine modes) (rest : m.ready = [])
    (ends : m.Ends demand id how) :
    ∃ last, m.Departs id last ∧ (last.retire id how).InLine modes ∧
      attend world m demand = Machine.settle world
        (modes.length * (modes.length + 1) + modes.length) (last.retire id how) := by
  obtain ⟨ready, last, departs, same⟩ := h.exists_departs rest ends
  obtain ⟨t, found⟩ := ends.exists_found
  obtain ⟨mode, mine, -⟩ := h.registered.exists_stance found
  have steady : (last.retire id how).Steady := same ▸ (h.steady.meet demand).run
  have length : (m.meet demand).threads.length = modes.length := by
    rw [← length_scene, ends.scene_meet, length_scene, h.registered.length]
  exact ⟨last, departs, h.retire rest departs mine (h.served_of_ends ends) steady,
    same ▸ attend_eq ready (ends.scene_meet ▸ h.registered.silent) length⟩

/-- After its first turn the machine is in line, and has turns enough to come to rest. -/
theorem InLine.exists_attend (world : World I) (h : m.InLine modes) (rest : m.ready = [])
    (demand : Demand ε) :
    ∃ next fuel, attend world m demand = Machine.settle world fuel next ∧
      next.InLine (modes ++ demand.mode?.toList) ∧
      next.urgent * ((modes ++ demand.mode?.toList).length + 1) + next.ready.length ≤ fuel ∧
      (m.InTurn → m.Timely demand → next.InTurn) := by
  rcases h.meet_cases demand with ⟨mode, rfl⟩ | ⟨id, how, ends⟩ | ⟨old, inLine, ready, turns⟩
  · have next := h.start rest mode
    exact ⟨_, _, attend_request h mode, next, next.enough, fun turn _ => turn.start h rest mode⟩
  · obtain ⟨last, departs, inLine, same⟩ := h.attend_ends world rest ends
    have older : modes ++ demand.mode?.toList = modes := by
      cases ends <;> exact List.append_nil modes
    rw [older]
    exact ⟨_, _, same, inLine, inLine.enough,
      fun turn _ => turn.retire rest h.steady.orderly.sleepers_nodup departs⟩
  · have older : modes ++ demand.mode?.toList = modes := by
      rw [old]
      exact List.append_nil modes
    rw [older]
    refine ⟨_, _, rfl, inLine, ?_, turns⟩
    rw [inLine.registered.length, ready, rest, Nat.add_mul]
    exact Nat.le_add_right_of_le (Nat.mul_le_mul_right _ inLine.urgent_le)

/-- **After each demand all have looked**, and the line and the log are in order. -/
theorem InLine.attend (h : m.InLine modes) (rest : m.ready = []) (demand : Demand ε) :
    (attend world m demand).InLine (modes ++ demand.mode?.toList) ∧
      (attend world m demand).ready = [] := by
  obtain ⟨next, fuel, same, inLine, enough, -⟩ := h.exists_attend world rest demand
  rw [same]
  exact inLine.settle enough

theorem InTurn.attend (turn : m.InTurn) (h : m.InLine modes) (rest : m.ready = [])
    (timely : m.Timely demand) : (attend world m demand).InTurn := by
  obtain ⟨next, fuel, same, inLine, -, turns⟩ := h.exists_attend world rest demand
  rw [same]
  exact (turns turn timely).settle inLine

theorem inLine_unhurried (world : World I) (data : σ) (demands : List (Demand ε)) :
    (unhurried world data demands).InLine (arrivals demands) ∧
      (unhurried world data demands).ready = [] := by
  induction demands using List.reverseRecOn with
  | nil =>
    have steady : (initial data : Machine I σ ε Unit).Steady := steady_after data [] nofun
    exact ⟨⟨steady, ⟨rfl, nofun, nofun, nofun, inOrder_nil _⟩, [], rfl, .nil⟩, rfl⟩
  | append_singleton demands demand ih =>
    have more : arrivals (demands ++ [demand]) = arrivals demands ++ demand.mode?.toList := by
      rw [arrivals, List.filterMap_append]
      cases demand <;> rfl
    rw [unhurried, List.foldl_append, more]
    exact ih.1.attend ih.2 demand

theorem inTurn_unhurried {data : σ} {demands : List (Demand ε)}
    (punctual : Punctual world data demands) : (unhurried world data demands).InTurn := by
  induction demands using List.reverseRecOn with
  | nil => exact ⟨⟨[], rfl, .nil⟩, nofun⟩
  | append_singleton demands demand ih =>
    obtain ⟨h, rest⟩ := inLine_unhurried world data demands
    have earlier : Punctual world data demands := by
      intro before early after split
      refine punctual before early (after ++ [demand]) ?_
      rw [split, List.append_assoc, List.cons_append]
    rw [unhurried, List.foldl_append]
    exact (ih earlier).attend h rest (punctual demands demand [] rfl)

end

end Machine

end SignedOrders.Tasks
