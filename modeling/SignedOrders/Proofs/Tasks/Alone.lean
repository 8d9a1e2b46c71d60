import SignedOrders.Proofs.Tasks.Scene

/-!
# A task that is alone

When all tasks have ended, a new task finds the lock free and nobody at the doors.  It
takes the lock and gives it back without waiting, and it waits for nothing but answers,
with or without the lock.  So the machine comes to rest with the data and the outcome that
its plan evaluates to (`rests_start`).

This is so for every plan that does not hold the lock until told and does not pass the
turnstile twice (`Unhindered`).
-/

namespace SignedOrders.Tasks

variable {I : Interface} {σ ε α : Type}

/-- Nothing in the plan waits for another task.  With `serial`, the task is in the
turnstile already. -/
def Unhindered : Bool → Plan I σ ε α → Prop
  | _, .finish _ => True
  | serial, .peek look => ∀ s, Unhindered serial (look s)
  | serial, .mark _ next => Unhindered serial next
  | serial, .shared look => ∀ s, Unhindered serial (look s)
  | serial, .exclusive _ next => Unhindered serial next
  | _, .hold .. => False
  | _, .relinquish .. => False
  | serial, .ask _ _ next => ∀ answer, Unhindered serial (next answer)
  | serial, .serial next => serial = false ∧ Unhindered true next

namespace Machine

variable {m : Machine I σ ε α} {id : Nat} {serial : Bool} {world : World I}

/-! ## Rest -/

/-- Nobody has or wants the lock, nobody is at the gate or waits at the turnstile, and no
task is ready.  A task may be in the turnstile. -/
structure Calm (m : Machine I σ ε α) (serial : Bool) : Prop where
  readers : m.readers = 0
  writing : m.writing = false
  writersWaiting : m.writersWaiting = 0
  sleepers : m.sleepers = []
  gate : m.gate = ⟨false, []⟩
  turnstile : m.turnstile = ⟨serial, []⟩
  ready : m.ready = []

/-- The calm machine with the given data, tasks and log. -/
def calmed (serial : Bool) (data : σ) (threads : List (Thread I σ ε α))
    (log : List (Nat × Notice ε α)) : Machine I σ ε α :=
  let first : Machine I σ ε α := initial data
  { first with turnstile := ⟨serial, []⟩, threads, log }

theorem Calm.exists_eq (h : m.Calm serial) :
    ∃ data threads log, m = calmed serial data threads log := by
  obtain ⟨data, readers, writing, writersWaiting, sleepers, gate, turnstile, threads, ready,
    log⟩ := m
  obtain ⟨rfl, rfl, rfl, rfl, rfl, rfl, rfl⟩ := h
  exact ⟨data, threads, log, rfl⟩

/-- Every task but one has ended. -/
def OthersEnded (m : Machine I σ ε α) (id : Nat) : Prop :=
  ∀ (other : Nat) (t : Thread I σ ε α), other ≠ id → m.threads[other]? = some t →
    ∃ outcome, t.point = .ended outcome

/-- The task is there, and it is in the turnstile if anyone is. -/
def Present (m : Machine I σ ε α) (id : Nat) (serial : Bool) : Prop :=
  ∃ t, m.threads[id]? = some t ∧ t.serial = serial

/-- The task runs, and all others have ended. -/
structure Alone (m : Machine I σ ε α) (id : Nat) (serial : Bool) : Prop where
  calm : m.Calm serial
  others : m.OthersEnded id
  present : m.Present id serial

/-- All tasks have ended. -/
structure Idle (m : Machine I σ ε α) : Prop where
  calm : m.Calm false
  ended : ∀ (id : Nat) (t : Thread I σ ε α), m.threads[id]? = some t →
    ∃ outcome, t.point = .ended outcome

/-! ## The lock is free -/

theorem follow_shared (h : m.Calm serial) (id : Nat) (look : σ → Plan I σ ε α) :
    m.follow id false (.shared look) = m.follow id false (look m.data) := by
  obtain ⟨data, threads, log, rfl⟩ := h.exists_eq
  rw [follow]
  rfl

theorem knock_exclusive (h : m.Calm serial) (id : Nat) (plan : Plan I σ ε α) :
    m.knock .exclusive id plan = ({ m with writing := true }, true) := by
  obtain ⟨data, threads, log, rfl⟩ := h.exists_eq
  rfl

theorem letGo_exclusive (h : m.Calm serial) (data : σ) (id : Nat) (rest : Plan I σ ε α) :
    { m with data, writing := true }.letGo .exclusive id rest = ({ m with data }, true) := by
  obtain ⟨_, threads, log, rfl⟩ := h.exists_eq
  rfl

theorem follow_exclusive (h : m.Calm serial) (id : Nat) (attempt : σ → Except ε σ)
    (next : Plan I σ ε α) :
    m.follow id false (.exclusive attempt next) =
      match attempt m.data with
      | .ok t => { m with data := t }.follow id false next
      | .error e => m.retire id (.failed e) := by
  rw [follow]
  simp only [Bool.false_eq_true, if_false, knock_exclusive h, if_true]
  cases attempt m.data with
  | ok t => simp only [letGo_exclusive h, if_true]
  | error e =>
    have free := letGo_exclusive h m.data id (.finish (.failed e))
    simp only [free, if_true]

/-- The machine after a task has taken the lock, if it wants to. -/
def locked (m : Machine I σ ε α) : Option Mode → Machine I σ ε α
  | none => m
  | some mode => (m.arrive mode).take mode

theorem locked_modify (m : Machine I σ ε α) (under : Option Mode) (id : Nat)
    (f : Thread I σ ε α → Thread I σ ε α) :
    (m.locked under).modify id f = (m.modify id f).locked under := by
  rcases under with _ | (_ | _) <;> rfl

theorem threads_locked (m : Machine I σ ε α) (under : Option Mode) :
    (m.locked under).threads = m.threads := by
  rcases under with _ | (_ | _) <;> rfl

/-- A task that asks takes the lock before, if it wants to. -/
theorem follow_ask (h : m.Calm serial) (id : Nat) (under : Option Mode) (question : I.Question)
    (next : I.Answer question → Plan I σ ε α) :
    m.follow id false (.ask under question next) =
      (m.locked under).park id (.asking under) (.ask under question next) := by
  obtain ⟨data, threads, log, rfl⟩ := h.exists_eq
  rcases under with _ | (_ | _) <;> rfl

/-- A task that has taken the lock gives it back, and goes on as if it had not. -/
theorem goOn_locked (h : m.Calm serial) (id : Nat) (under : Option Mode) (rest : Plan I σ ε α) :
    (m.locked under).goOn under id rest = m.follow id false rest := by
  obtain ⟨data, threads, log, rfl⟩ := h.exists_eq
  rcases under with _ | (_ | _) <;> rfl

theorem follow_serial (h : m.Calm false) (id : Nat) (next : Plan I σ ε α) :
    m.follow id false (.serial next) =
      ((m.occupyDoor .turnstile).modify id fun t => { t with serial := true }).follow id false
        next := by
  have free : m.isOpen .turnstile = true := by
    simp [isOpen, passage, h.turnstile]
  rw [follow, free]
  rfl

/-! ## One task changes -/

theorem OthersEnded.modify (h : m.OthersEnded id) (f : Thread I σ ε α → Thread I σ ε α) :
    (m.modify id f).OthersEnded id := by
  intro other t hne found
  rw [getElem?_modify_of_ne m hne] at found
  exact h other t hne found

theorem OthersEnded.locked (h : m.OthersEnded id) (under : Option Mode) :
    (m.locked under).OthersEnded id := by
  unfold OthersEnded
  rwa [threads_locked]

theorem Present.modify {serial' : Bool} (h : m.Present id serial)
    {f : Thread I σ ε α → Thread I σ ε α}
    (hf : ∀ t, t.serial = serial → (f t).serial = serial') :
    (m.modify id f).Present id serial' := by
  obtain ⟨t, found, hserial⟩ := h
  exact ⟨f t, by rw [getElem?_modify_self, found, Option.map_some], hf t hserial⟩

/-- A calm machine stays calm when a task changes. -/
theorem Calm.modify (h : m.Calm serial) (id : Nat) (f : Thread I σ ε α → Thread I σ ε α) :
    (m.modify id f).Calm serial :=
  ⟨h.readers, h.writing, h.writersWaiting, h.sleepers, h.gate, h.turnstile, h.ready⟩

/-- A task that has ended lets the turnstile go, if it was in it. -/
theorem retire_eq (h : m.Calm serial) (hp : m.Present id serial) (outcome : Outcome ε α) :
    m.retire id outcome =
      { (m.modify id fun t =>
          { t with plan := .finish outcome, point := .ended outcome, wake := .granted,
                   serial := false }) with
        turnstile := ⟨false, []⟩
        log := m.log ++ [(id, .ended outcome)] } := by
  -- whether the turnstile is let go is up to the task, which is in it if anyone is
  obtain ⟨⟨_, _, _, _, turn⟩, found, rfl⟩ := hp
  obtain ⟨data, threads, log, rfl⟩ := h.exists_eq
  rw [retire, found]
  cases turn <;> rfl

/-- **A task that is alone and ends** leaves all tasks ended. -/
theorem idle_retire (h : m.Alone id serial) (outcome : Outcome ε α) :
    (m.retire id outcome).Idle ∧ (m.retire id outcome).threads.length = m.threads.length ∧
      (m.retire id outcome).data = m.data ∧ (m.retire id outcome).outcome? id = some outcome := by
  obtain ⟨t, found, -⟩ := h.present
  rw [retire_eq h.calm h.present]
  refine ⟨⟨?_, fun other u hu => ?_⟩, length_modify .., rfl, ?_⟩
  · exact ⟨h.calm.readers, h.calm.writing, h.calm.writersWaiting, h.calm.sleepers, h.calm.gate,
      rfl, h.calm.ready⟩
  · by_cases same : other = id
    · subst same
      rw [getElem?_modify_self, found, Option.map_some, Option.some.injEq] at hu
      exact ⟨outcome, by rw [← hu]⟩
    · rw [getElem?_modify_of_ne m same] at hu
      exact h.others other u same hu
  · simp only [outcome?, pointOf?, getElem?_modify_self, found, Option.map_some]

/-! ## Answers -/

/-- The task waits for an answer. -/
def isAsking (t : Option (Thread I σ ε α)) : Bool :=
  match t with
  | some ⟨_, .asking _, .pending, _, _⟩ => true
  | _ => false

theorem asker?_eq_find? (m : Machine I σ ε α) :
    m.asker? = (List.range m.threads.length).find? fun id => isAsking m.threads[id]? := by
  unfold asker? isAsking
  rfl

theorem isAsking_of_ended {t : Thread I σ ε α} (h : ∃ outcome, t.point = .ended outcome) :
    isAsking (some t) = false := by
  obtain ⟨plan, point, wake, told, turn⟩ := t
  obtain ⟨outcome, rfl⟩ := h
  rfl

/-- If the others have ended, the asker is the task itself or nobody. -/
theorem OthersEnded.asker?_eq (h : m.OthersEnded id) :
    m.asker? = if isAsking m.threads[id]? = true then some id else none := by
  have ended (other : Nat) (hne : other ≠ id) : isAsking m.threads[other]? = false := by
    cases found : m.threads[other]? with
    | none => rfl
    | some t => exact isAsking_of_ended (h other t hne found)
  rw [asker?_eq_find?]
  split
  · next asking =>
    refine List.find?_range_eq_some.2 ⟨asking, ?_, fun j hj => ?_⟩
    · rw [List.mem_range]
      refine Nat.lt_of_not_le fun beyond => ?_
      rw [List.getElem?_eq_none beyond] at asking
      cases asking
    · rw [ended j (by omega)]
      rfl
  · next silent =>
    refine List.find?_eq_none.2 fun j _ => ?_
    by_cases same : j = id
    · exact same ▸ silent
    · rw [ended j same]
      exact Bool.false_ne_true

/-- Nothing moves when all tasks have ended. -/
theorem Idle.settle (h : m.Idle) (world : World I) (fuel : Nat) : settle world fuel m = m := by
  have others : m.OthersEnded 0 := fun other t _ found => h.ended other t found
  have silent : isAsking m.threads[0]? = false := by
    cases found : m.threads[0]? with
    | none => rfl
    | some t => exact isAsking_of_ended (h.ended 0 t found)
  cases fuel with
  | zero => rfl
  | succ fuel =>
    rw [Machine.settle, others.asker?_eq, silent]
    simp [h.calm.ready]

/-- The only task that is ready runs. -/
theorem OthersEnded.settle_ready (h : m.OthersEnded id) (silent : isAsking m.threads[id]? = false)
    (ready : m.ready = [id]) (world : World I) (fuel : Nat) :
    Machine.settle world (fuel + 1) m =
      Machine.settle world fuel ({ m with ready := [] }.resume id) := by
  rw [Machine.settle, h.asker?_eq, silent, if_neg Bool.false_ne_true]
  dsimp only
  rw [ready, run, ready]
  rfl

/-! ## The machine comes to rest -/

/-- The machine comes to rest with so many tasks, these data, and this outcome of a task. -/
def Rests (world : World I) (m : Machine I σ ε α) (count id : Nat) (data : σ)
    (outcome : Outcome ε α) : Prop :=
  ∃ moves last, Idle last ∧ last.threads.length = count ∧ last.data = data ∧
    last.outcome? id = some outcome ∧ ∀ fuel, settle world (moves + fuel) m = last

variable {count : Nat} {data : σ} {outcome : Outcome ε α}

theorem Rests.move {next : Machine I σ ε α}
    (h : ∀ fuel, settle world (fuel + 1) m = settle world fuel next)
    (rests : Rests world next count id data outcome) : Rests world m count id data outcome := by
  obtain ⟨moves, last, idle, length, hdata, houtcome, settled⟩ := rests
  refine ⟨moves + 1, last, idle, length, hdata, houtcome, fun fuel => ?_⟩
  rw [Nat.add_right_comm, h, settled]

/-- The machine rests when the task ends. -/
theorem Alone.rests_retire (h : m.Alone id serial) (world : World I) (outcome : Outcome ε α) :
    Rests world (m.retire id outcome) m.threads.length id m.data outcome := by
  obtain ⟨idle, length, hdata, houtcome⟩ := idle_retire h outcome
  exact ⟨0, _, idle, length, hdata, houtcome, fun _ => idle.settle world _⟩

theorem Alone.change (h : m.Alone id serial) (s : σ) : { m with data := s }.Alone id serial :=
  ⟨⟨h.calm.readers, h.calm.writing, h.calm.writersWaiting, h.calm.sleepers, h.calm.gate,
    h.calm.turnstile, h.calm.ready⟩, h.others, h.present⟩

/-- The task may pass the turnstile. -/
theorem Alone.enter (h : m.Alone id false) :
    ((m.occupyDoor .turnstile).modify id fun t => { t with serial := true }).Alone id true := by
  refine ⟨⟨h.calm.readers, h.calm.writing, h.calm.writersWaiting, h.calm.sleepers, h.calm.gate, ?_,
    h.calm.ready⟩, ?_, ?_⟩
  · show (⟨true, m.turnstile.queue⟩ : Passage) = ⟨true, []⟩
    rw [h.calm.turnstile]
  · exact OthersEnded.modify (m := m.occupyDoor .turnstile) h.others _
  · exact Present.modify (m := m.occupyDoor .turnstile) h.present fun _ _ => rfl

theorem Alone.modify (h : m.Alone id serial) {f : Thread I σ ε α → Thread I σ ε α}
    (hf : ∀ t, (f t).serial = t.serial) : (m.modify id f).Alone id serial :=
  ⟨h.calm.modify id f, h.others.modify f, h.present.modify fun t ht => (hf t).trans ht⟩

/-- A task gets its answer after some turns, and then goes on with `plan`. -/
def deliver (m : Machine I σ ε α) (under : Option Mode) (id : Nat) (plan : Plan I σ ε α) :
    Nat → Machine I σ ε α
  | 0 => m.goOn under id plan
  | turns + 1 => m.awaitAnswer id under turns plan

/-- The task whose answer is on the way is the next one that runs. -/
theorem settle_awaitAnswer (h : m.Alone id serial) (under : Option Mode) (turns : Nat)
    (plan : Plan I σ ε α) (fuel : Nat) :
    settle world (fuel + 1) ((m.locked under).awaitAnswer id under turns plan) =
      settle world fuel
        (((m.modify id fun t =>
          { t with plan, point := .answered under turns, wake := .granted }).locked under).deliver
            under id plan turns) := by
  obtain ⟨t, found, -⟩ := h.present
  have waiting :
      ((m.modify id fun t =>
        { t with plan, point := .answered under turns, wake := .granted }).locked
          under).threads[id]? =
        some { t with plan, point := .answered under turns, wake := .granted } := by
    rw [threads_locked, getElem?_modify_self, found, Option.map_some]
  have others : ((m.locked under).awaitAnswer id under turns plan).OthersEnded id :=
    (h.others.locked under).modify _
  have calm : { (m.locked under).awaitAnswer id under turns plan with ready := [] } =
      (m.modify id fun t =>
        { t with plan, point := .answered under turns, wake := .granted }).locked under := by
    obtain ⟨data, threads, log, rfl⟩ := h.calm.exists_eq
    rcases under with _ | (_ | _) <;> rfl
  have ready : ((m.locked under).awaitAnswer id under turns plan).ready = [id] := by
    obtain ⟨data, threads, log, rfl⟩ := h.calm.exists_eq
    rcases under with _ | (_ | _) <;> rfl
  have silent : isAsking ((m.locked under).awaitAnswer id under turns plan).threads[id]? =
      false := by
    show isAsking ((m.locked under).modify id _).threads[id]? = false
    rw [locked_modify, waiting]
    rfl
  rw [others.settle_ready silent ready, calm, resume, waiting]
  cases turns with
  | zero => rfl
  | succ turns => rfl

/-- An answer comes in the end, however many turns it takes. -/
theorem rests_deliver {s : σ} {plan : Plan I σ ε α} (under : Option Mode) (turns : Nat)
    (goesOn : ∀ m : Machine I σ ε α, m.Alone id serial → m.threads.length = count → m.data = s →
      Rests world (m.follow id false plan) count id data outcome)
    (h : m.Alone id serial) (length : m.threads.length = count) (hs : m.data = s) :
    Rests world ((m.locked under).deliver under id plan turns) count id data outcome := by
  induction turns generalizing m with
  | zero =>
    rw [deliver, goOn_locked h.calm]
    exact goesOn m h length hs
  | succ turns ih =>
    refine .move (settle_awaitAnswer h under turns plan) ?_
    exact ih (h.modify fun _ => rfl) ((length_modify ..).trans length) hs

/-- The task that asks gets its answer. -/
theorem settle_ask (h : m.Alone id serial) (under : Option Mode) (question : I.Question)
    (next : I.Answer question → Plan I σ ε α) (fuel : Nat) :
    settle world (fuel + 1) (m.follow id false (.ask under question next)) =
      settle world fuel
        (((m.park id (.asking under) (.ask under question next)).locked under).deliver under id
          (next (world.answer question)) (world.turns question)) := by
  obtain ⟨t, found, -⟩ := h.present
  have waiting :
      ((m.park id (.asking under) (.ask under question next)).locked under).threads[id]? =
        some { t with plan := .ask under question next, point := .asking under,
                      wake := .pending } := by
    rw [threads_locked, park, getElem?_modify_self, found, Option.map_some]
  have others :
      ((m.park id (.asking under) (.ask under question next)).locked under).OthersEnded id :=
    OthersEnded.locked (h.others.modify _) under
  have asking :
      isAsking ((m.park id (.asking under) (.ask under question next)).locked under).threads[id]? =
        true := by
    rw [waiting]
    rfl
  rw [follow_ask h.calm, park, locked_modify, ← park, settle, others.asker?_eq, asking, if_pos rfl]
  dsimp only
  rw [reply, waiting]
  rfl

/-- **A task that is alone** goes on as its plan evaluates. -/
theorem rests_follow (world : World I) (p : Plan I σ ε α) (h : m.Alone id serial)
    (hp : Unhindered serial p) (length : m.threads.length = count) :
    Rests world (m.follow id false p) count id (p.evaluate world.answer m.data).1
      (p.evaluate world.answer m.data).2 := by
  -- each step leaves the task alone, in another machine
  induction p generalizing m serial with
  | finish outcome => exact length ▸ h.rests_retire world outcome
  | peek look ih => exact ih m.data h (hp m.data) length
  | mark change next ih => exact ih (h.change (change m.data)) hp length
  | shared look ih =>
    rw [follow_shared h.calm]
    exact ih m.data h (hp m.data) length
  | exclusive attempt next ih =>
    rw [follow_exclusive h.calm, Plan.evaluate]
    cases attempt m.data with
    | ok t => exact ih (h.change t) hp length
    | error e => exact length ▸ h.rests_retire world (.failed e)
  | hold mode next => exact hp.elim
  | relinquish mode next => exact hp.elim
  | ask under question next ih =>
    have asked : (m.park id (.asking under) (.ask under question next)).Alone id serial :=
      h.modify fun _ => rfl
    have asked_length :
        (m.park id (.asking under) (.ask under question next)).threads.length = count :=
      (length_modify ..).trans length
    have goesOn (m' : Machine I σ ε α) (h' : m'.Alone id serial)
        (length' : m'.threads.length = count) (hdata : m'.data = m.data) :=
      hdata ▸ ih (world.answer question) h' (hp _) length'
    exact .move (settle_ask h under question next)
      (rests_deliver under _ goesOn asked asked_length rfl)
  | serial next ih =>
    obtain ⟨rfl, hp⟩ := hp
    rw [follow_serial h.calm]
    exact ih h.enter hp ((length_modify ..).trans length)

/-! ## A new task -/

theorem getElem?_start_self (m : Machine I σ ε α) (plan : Plan I σ ε α) :
    (m.start plan).threads[m.threads.length]? = some ⟨plan, .fresh, .granted, none, false⟩ :=
  List.getElem?_concat_length

/-- A new task is alone if all others have ended. -/
theorem Idle.alone_start (idle : m.Idle) (plan : Plan I σ ε α) :
    { m.start plan with ready := [] }.Alone m.threads.length false := by
  refine ⟨⟨idle.calm.readers, idle.calm.writing, idle.calm.writersWaiting, idle.calm.sleepers,
    idle.calm.gate, idle.calm.turnstile, rfl⟩, fun other t hne found => ?_,
    ⟨_, getElem?_start_self m plan, rfl⟩⟩
  obtain ⟨within, -⟩ := List.getElem?_eq_some_iff.1 found
  have before : other < m.threads.length := by
    rw [start, List.length_append, List.length_singleton] at within
    omega
  exact idle.ended other t ((List.getElem?_append_left before).symm.trans found)

/-- A new task is the next one that runs. -/
theorem Idle.settle_start (idle : m.Idle) (plan : Plan I σ ε α) (fuel : Nat) :
    Machine.settle world (fuel + 1) (m.start plan) =
      Machine.settle world fuel
        ({ m.start plan with ready := [] }.follow m.threads.length false plan) := by
  have ready : (m.start plan).ready = [m.threads.length] := by
    show m.ready ++ [m.threads.length] = [m.threads.length]
    rw [idle.calm.ready, List.nil_append]
  have others : (m.start plan).OthersEnded m.threads.length := (idle.alone_start plan).others
  have silent : isAsking (m.start plan).threads[m.threads.length]? = false := by
    rw [getElem?_start_self]
    rfl
  rw [others.settle_ready silent ready, resume, getElem?_start_self]
  rfl

/-- **When all tasks have ended, a new task goes as its plan evaluates**, and then all tasks
have ended again. -/
theorem rests_start (world : World I) (plan : Plan I σ ε α) (idle : m.Idle)
    (hp : Unhindered false plan) :
    Rests world (m.start plan) (m.threads.length + 1) m.threads.length
      (plan.evaluate world.answer m.data).1 (plan.evaluate world.answer m.data).2 :=
  .move (idle.settle_start plan)
    (rests_follow world plan (idle.alone_start plan) hp List.length_append)

end Machine

end SignedOrders.Tasks
