import SignedOrders.Proofs.Tasks.Moves
import SignedOrders.Proofs.Tasks.Scene

/-!
# What a running task does

A task that runs follows its plan without a break until it has to wait or ends.  A
**stretch** says all that it may do meanwhile, one case for each step of a plan
(`exists_stretch`).  It also keeps whether the task has changed the data under the
exclusive lock, so that what a run has changed can be told from its history.

A stretch leaves the other tasks as they stood, and its task at a point where the plan
starts with what the task waits for (`Stretch.exists_placed`).
-/

namespace SignedOrders.Tasks

variable {I : Interface} {σ ε α : Type}

namespace Plan

/-- How the first step of the plan takes the lock, if it does. -/
def wants? : Plan I σ ε α → Option Mode
  | .shared _ => some .shared
  | .exclusive .. => some .exclusive
  | .hold mode _ => some mode
  | .ask under _ _ => under
  | _ => none

/-- The first step of the plan takes the lock or passes the turnstile. -/
def Waits (p : Plan I σ ε α) : Prop := (∃ mode, p.wants? = some mode) ∨ ∃ next, p = .serial next

end Plan

/-- The plan of a waiting task starts with what the task waits for, and the task is not at
the gate. -/
def Thread.Placed (t : Thread I σ ε α) : Prop :=
  match t.point with
  | .asleep mode => t.plan.wants? = some mode
  | .atTurnstile => ∃ next, t.plan = .serial next
  | .atGate _ | .returning .. | .leaving _ => False
  | _ => True

namespace Machine

/-- One step of a running task.  With `true`, the task already has the lock for the first
step of its plan, or is called to pass the turnstile.  The list has the number of the task
if the step has changed the data under the exclusive lock. -/
inductive Goes (id : Nat) : Machine I σ ε α → Bool → Plan I σ ε α → List Nat →
    Machine I σ ε α → Bool → Plan I σ ε α → Prop where
  | peek {m look} : Goes id m false (.peek look) [] m false (look m.data)
  | mark {m change next} :
      Goes id m false (.mark change next) [] { m with data := change m.data } false next
  | relinquish {m mode next} :
      Goes id m false (.relinquish mode next) [] (m.release mode) false next
  | take {m mode p} (wants : p.wants? = some mode) (free : m.admits mode = true) :
      Goes id m false p [] ((m.arrive mode).take mode) true p
  | shared {m look} : Goes id m true (.shared look) [] (m.release .shared) false (look m.data)
  | exclusive {m attempt data next} (done : attempt m.data = .ok data) :
      Goes id m true (.exclusive attempt next) [id] ({ m with data }.release .exclusive) false next
  | refused {m attempt e next} (refused : attempt m.data = .error e) :
      Goes id m true (.exclusive attempt next) [] (m.release .exclusive) false
        (.finish (.failed e))
  | hold {m mode next told} (heard : m.toldOf id = some told) :
      Goes id m true (.hold mode next) [] (((m.report id .acquired).untell id).release mode) false
        (next told)
  | pass {m next} (free : m.isOpen .turnstile = true) :
      Goes id m false (.serial next) [] m true (.serial next)
  | serial {m next} :
      Goes id m true (.serial next) []
        ((m.occupyDoor .turnstile).modify id fun t => { t with serial := true }) false next

/-- Where a running task stops: at its end, or to wait. -/
inductive Stops (id : Nat) (m : Machine I σ ε α) :
    Bool → Plan I σ ε α → Machine I σ ε α → Prop where
  | finish {outcome} : Stops id m false (.finish outcome) (m.retire id outcome)
  | ask {held under question next} (has : held = under.isSome) :
      Stops id m held (.ask under question next)
        (m.park id (.asking under) (.ask under question next))
  | sleep {mode p} (wants : p.wants? = some mode) (busy : m.admits mode = false) :
      Stops id m false p ((m.arrive mode).sleep id mode p)
  | hold {mode next} (untold : m.toldOf id = none) :
      Stops id m true (.hold mode next)
        ((m.report id .acquired).park id (.inside mode) (.hold mode next))
  | queue {next} (busy : m.isOpen .turnstile = false) :
      Stops id m false (.serial next)
        ((m.joinQueue .turnstile id).park id .atTurnstile (.serial next))

/-- What a task does from some machine on, following a plan until it stops. -/
inductive Stretch (id : Nat) :
    Machine I σ ε α → Bool → Plan I σ ε α → List Nat → Machine I σ ε α → Prop where
  | stop {m held p last} (h : Stops id m held p last) : Stretch id m held p [] last
  | go {m held p new m' held' p' wrote last} (h : Goes id m held p new m' held' p')
      (later : Stretch id m' held' p' wrote last) : Stretch id m held p (new ++ wrote) last

/-! ## A running task does what a stretch says -/

section

variable {m : Machine I σ ε α} {id : Nat} {mode : Mode} (free : m.gate = ⟨false, []⟩)

include free

/-- A task that wants the lock takes it or falls asleep. -/
theorem follow_of_wants {p : Plan I σ ε α} (wants : p.wants? = some mode) :
    m.follow id false p =
      if m.admits mode then ((m.arrive mode).take mode).follow id true p
      else (m.arrive mode).sleep id mode p := by
  cases p with
  | shared look =>
    cases wants
    rw [follow, follow, if_neg Bool.false_ne_true, knock_eq id .shared free]
    cases m.admits .shared <;> rfl
  | exclusive attempt next =>
    cases wants
    rw [follow, follow, if_neg Bool.false_ne_true, knock_eq id .exclusive free]
    cases m.admits .exclusive <;> rfl
  | hold mode next =>
    cases wants
    rw [follow, follow, if_neg Bool.false_ne_true, knock_eq id mode free]
    cases m.admits mode <;> rfl
  | ask under question next =>
    cases wants
    rw [follow, follow, if_neg Bool.false_ne_true, knock_eq id mode free]
    cases m.admits mode <;> rfl
  | _ => cases wants

/-- What a task does with the lock, so that it takes the lock or falls asleep before. -/
theorem exists_stretch_of_wants {p : Plan I σ ε α} (wants : p.wants? = some mode)
    (held : ∀ m : Machine I σ ε α, m.gate = ⟨false, []⟩ →
      ∃ wrote, Stretch id m true p wrote (m.follow id true p)) :
    (∃ wrote, Stretch id m false p wrote (m.follow id false p)) ∧
      (p.Waits → ∃ wrote, Stretch id m true p wrote (m.follow id true p)) := by
  refine ⟨?_, fun _ => held m free⟩
  rw [follow_of_wants free wants]
  cases admitted : m.admits mode with
  | true =>
    have free' : ((m.arrive mode).take mode).gate = ⟨false, []⟩ := by cases mode <;> exact free
    obtain ⟨wrote, h⟩ := held _ free'
    exact ⟨wrote, .go (.take wants admitted) h⟩
  | false => exact ⟨[], .stop (.sleep wants admitted)⟩

variable (id) in
/-- **A task that follows a plan goes through a stretch** if nobody is at the gate. -/
theorem exists_stretch (p : Plan I σ ε α) :
    (∃ wrote, Stretch id m false p wrote (m.follow id false p)) ∧
      (p.Waits → ∃ wrote, Stretch id m true p wrote (m.follow id true p)) := by
  induction p generalizing m with
  | finish outcome => exact ⟨⟨[], .stop .finish⟩, by rintro (⟨_, ⟨⟩⟩ | ⟨_, ⟨⟩⟩)⟩
  | peek look ih =>
    obtain ⟨wrote, h⟩ := (ih m.data free).1
    exact ⟨⟨wrote, .go .peek h⟩, by rintro (⟨_, ⟨⟩⟩ | ⟨_, ⟨⟩⟩)⟩
  | mark change next ih =>
    obtain ⟨wrote, h⟩ := (ih (m := { m with data := change m.data }) free).1
    exact ⟨⟨wrote, .go .mark h⟩, by rintro (⟨_, ⟨⟩⟩ | ⟨_, ⟨⟩⟩)⟩
  | ask under question next =>
    cases under with
    | none => exact ⟨⟨[], .stop (.ask rfl)⟩, by rintro (⟨_, ⟨⟩⟩ | ⟨_, ⟨⟩⟩)⟩
    | some mode => exact exists_stretch_of_wants free rfl fun m _ => ⟨[], .stop (.ask rfl)⟩
  | relinquish mode next ih =>
    have free' : (m.release mode).gate = ⟨false, []⟩ := (m.gate_release mode).trans free
    obtain ⟨wrote, h⟩ := (ih free').1
    refine ⟨⟨wrote, ?_⟩, by rintro (⟨_, ⟨⟩⟩ | ⟨_, ⟨⟩⟩)⟩
    rw [follow, letGo_eq id mode free]
    exact .go .relinquish h
  | shared look ih =>
    refine exists_stretch_of_wants free rfl fun m free => ?_
    have free' : (m.release .shared).gate = ⟨false, []⟩ := (m.gate_release _).trans free
    obtain ⟨wrote, h⟩ := (ih m.data free').1
    refine ⟨wrote, ?_⟩
    simp only [follow, if_true, letGo_eq id .shared free]
    exact .go .shared h
  | exclusive attempt next ih =>
    refine exists_stretch_of_wants free rfl fun m free => ?_
    rw [follow]
    simp only [if_true]
    cases attempted : attempt m.data with
    | ok data =>
      have free' : { m with data }.gate = ⟨false, []⟩ := free
      have free'' := (gate_release _ .exclusive).trans free'
      obtain ⟨wrote, h⟩ := (ih free'').1
      refine ⟨id :: wrote, ?_⟩
      simp only [letGo_eq id .exclusive free', if_true]
      exact .go (.exclusive attempted) h
    | error e =>
      refine ⟨[], ?_⟩
      simp only [letGo_eq id .exclusive free, if_true]
      exact .go (.refused attempted) (.stop .finish)
  | hold mode next ih =>
    refine exists_stretch_of_wants free rfl fun m free => ?_
    rw [follow]
    simp only [if_true]
    cases told : m.toldOf id with
    | none =>
      refine ⟨[], ?_⟩
      rw [show (m.report id .acquired).toldOf id = none from told]
      exact .stop (.hold told)
    | some how =>
      have free' : ((m.report id .acquired).untell id).gate = ⟨false, []⟩ := free
      have free'' := (gate_release _ mode).trans free'
      obtain ⟨wrote, h⟩ := (ih how free'').1
      refine ⟨wrote, ?_⟩
      rw [show (m.report id .acquired).toldOf id = some how from told]
      simp only [letGo_eq id mode free', if_true]
      exact .go (.hold told) h
  | serial next ih =>
    have held : ∃ wrote, Stretch id m true (.serial next) wrote
        (m.follow id true (.serial next)) := by
      obtain ⟨wrote, h⟩ := (ih (m := (m.occupyDoor .turnstile).modify id fun t =>
        { t with serial := true }) free).1
      exact ⟨wrote, .go .serial h⟩
    refine ⟨?_, fun _ => held⟩
    cases opened : m.isOpen .turnstile with
    | true =>
      obtain ⟨wrote, h⟩ := held
      refine ⟨wrote, ?_⟩
      have same : m.follow id false (.serial next) = m.follow id true (.serial next) := by
        rw [follow, follow, opened]
        rfl
      rw [same]
      exact .go (.pass opened) h
    | false =>
      refine ⟨[], ?_⟩
      rw [follow, opened]
      exact .stop (.queue opened)

end

/-! ## What a running task leaves -/

section

variable {m m' last : Machine I σ ε α} {id : Nat} {held held' : Bool} {p p' : Plan I σ ε α}
  {new wrote : List Nat}

theorem others_untell (m : Machine I σ ε α) (id : Nat) : (m.untell id).others id = m.others id :=
  others_modify ..

theorem scene_untell (m : Machine I σ ε α) (id : Nat) : (m.untell id).scene = m.scene :=
  m.scene_modify_of_still id fun _ => rfl

theorem scene_serial (m : Machine I σ ε α) (id : Nat) :
    ((m.occupyDoor .turnstile).modify id fun t => { t with serial := true }).scene[id]? =
      (m.scene[id]?).map fun t => { t with serial := true } :=
  (m.occupyDoor .turnstile).getElem?_scene_modify id fun _ => rfl

theorem Goes.gate_eq (h : Goes id m held p new m' held' p') : m'.gate = m.gate := by
  cases h with
  | relinquish => exact gate_release ..
  | take => rename_i mode _ _; cases mode <;> rfl
  | shared => exact gate_release ..
  | exclusive => exact gate_release ..
  | refused => exact gate_release ..
  | hold => exact gate_release ..
  | _ => rfl

theorem Goes.others_eq (h : Goes id m held p new m' held' p') : m'.others id = m.others id := by
  cases h with
  | relinquish => exact others_release ..
  | take => rename_i mode _ _; cases mode <;> rfl
  | shared => exact others_release ..
  | exclusive => exact others_release ..
  | refused => exact others_release ..
  | hold => exact (others_release ..).trans (others_untell ..)
  | serial => exact others_modify ..
  | _ => rfl

/-- A running task is still there after a step. -/
theorem Goes.exists_found (h : Goes id m held p new m' held' p') {t : Thread I σ ε α}
    (found : m.scene[id]? = some t) :
    ∃ serial, m'.scene[id]? = some { t with serial } := by
  cases h with
  | serial => exact ⟨true, (scene_serial m id).trans (congrArg (Option.map _) found)⟩
  | take => rename_i mode _ _; cases mode <;> exact ⟨t.serial, found⟩
  | hold => exact ⟨t.serial, by rw [scene_release, scene_untell]; exact found⟩
  | peek => exact ⟨t.serial, found⟩
  | mark => exact ⟨t.serial, found⟩
  | pass => exact ⟨t.serial, found⟩
  | _ => exact ⟨t.serial, by rw [scene_release]; exact found⟩

theorem Stops.gate_eq (h : Stops id m held p last) : last.gate = m.gate := by
  cases h with
  | finish => exact gate_retire ..
  | sleep => rename_i mode _ _; cases mode <;> rfl
  | _ => rfl

theorem Stops.others_eq (h : Stops id m held p last) : last.others id = m.others id := by
  cases h with
  | finish => exact others_retire ..
  | sleep =>
    rename_i mode _ _
    refine (others_modify ..).trans ?_
    cases mode <;> rfl
  | _ => exact others_modify ..

/-- A task that stops has its plan before it, which starts with what the task waits for. -/
theorem Stops.exists_found (h : Stops id m held p last) {t : Thread I σ ε α}
    (found : m.scene[id]? = some t) :
    ∃ t, last.scene[id]? = some t ∧ t.plan = p ∧ t.Placed := by
  cases h with
  | @finish outcome =>
    exact ⟨_, (m.getElem?_scene_retire id outcome).trans (congrArg _ found), rfl, trivial⟩
  | ask => exact ⟨_, (m.getElem?_scene_park id ..).trans (congrArg _ found), rfl, trivial⟩
  | @sleep mode _ wants =>
    have found' : (m.arrive mode).scene[id]? = some t := by cases mode <;> exact found
    exact ⟨_, ((m.arrive mode).getElem?_scene_park id ..).trans (congrArg _ found'), rfl, wants⟩
  | hold => exact ⟨_, (m.getElem?_scene_park id ..).trans (congrArg _ found), rfl, trivial⟩
  | queue => exact ⟨_, (m.getElem?_scene_park id ..).trans (congrArg _ found), rfl, _, rfl⟩

theorem Stretch.gate_eq (h : Stretch id m held p wrote last) : last.gate = m.gate := by
  induction h with
  | stop h => exact h.gate_eq
  | go h _ ih => exact ih.trans h.gate_eq

/-- The other tasks stand as they stood. -/
theorem Stretch.others_eq (h : Stretch id m held p wrote last) : last.others id = m.others id := by
  induction h with
  | stop h => exact h.others_eq
  | go h _ ih => exact ih.trans h.others_eq

theorem Stretch.exists_placed (h : Stretch id m held p wrote last) {t : Thread I σ ε α}
    (found : m.scene[id]? = some t) : ∃ t, last.scene[id]? = some t ∧ t.Placed := by
  induction h generalizing t with
  | stop h =>
    obtain ⟨t, found, -, placed⟩ := h.exists_found found
    exact ⟨t, found, placed⟩
  | go h _ ih =>
    obtain ⟨serial, found⟩ := h.exists_found found
    exact ih found

end

/-! ## What a stretch has gone through -/

section

variable {m last : Machine I σ ε α} {id : Nat} {wrote : List Nat}

theorem Stretch.of_finish {outcome : Outcome ε α}
    (h : Stretch id m false (.finish outcome) wrote last) :
    wrote = [] ∧ last = m.retire id outcome := by
  cases h with
  | stop h =>
    cases h with
    | finish => exact ⟨rfl, rfl⟩
    | sleep wants => cases wants
  | go h =>
    cases h with
    | take wants => cases wants

theorem Stretch.of_peek {look : σ → Plan I σ ε α} (h : Stretch id m false (.peek look) wrote last) :
    Stretch id m false (look m.data) wrote last := by
  cases h with
  | stop h =>
    cases h with
    | sleep wants => cases wants
  | go h later =>
    cases h with
    | peek => exact later
    | take wants => cases wants

theorem Stretch.of_mark {change : σ → σ} {next : Plan I σ ε α}
    (h : Stretch id m false (.mark change next) wrote last) :
    Stretch id { m with data := change m.data } false next wrote last := by
  cases h with
  | stop h =>
    cases h with
    | sleep wants => cases wants
  | go h later =>
    cases h with
    | mark => exact later
    | take wants => cases wants

/-- A task that wants the lock takes it or falls asleep. -/
theorem Stretch.of_wants {p : Plan I σ ε α} {mode : Mode} (wants : p.wants? = some mode)
    (h : Stretch id m false p wrote last) :
    m.admits mode = true ∧ Stretch id ((m.arrive mode).take mode) true p wrote last ∨
      m.admits mode = false ∧ wrote = [] ∧ last = (m.arrive mode).sleep id mode p := by
  cases h with
  | stop h =>
    right
    cases h with
    | sleep wants' busy =>
      rw [wants] at wants'
      cases wants'
      exact ⟨busy, rfl, rfl⟩
    | ask has =>
      cases wants
      cases has
    | _ => cases wants
  | go h later =>
    left
    cases h with
    | take wants' free =>
      rw [wants] at wants'
      cases wants'
      exact ⟨free, later⟩
    | _ => cases wants

/-- A task that has the lock to change the data does so, or fails. -/
theorem Stretch.of_exclusive {attempt : σ → Except ε σ} {next : Plan I σ ε α}
    (h : Stretch id m true (.exclusive attempt next) wrote last) :
    (∃ data later, attempt m.data = .ok data ∧ wrote = id :: later ∧
        Stretch id ({ m with data }.release .exclusive) false next later last) ∨
      ∃ e, attempt m.data = .error e ∧ wrote = [] ∧
        last = (m.release .exclusive).retire id (.failed e) := by
  cases h with
  | stop h => cases h
  | go h later =>
    cases h with
    | exclusive done => exact .inl ⟨_, _, done, rfl, later⟩
    | refused refused =>
      obtain ⟨rfl, rfl⟩ := later.of_finish
      exact .inr ⟨_, refused, rfl, rfl⟩

/-- A task passes the turnstile if it is open, and else waits at it. -/
theorem Stretch.of_serial {next : Plan I σ ε α} (h : Stretch id m false (.serial next) wrote last) :
    m.isOpen .turnstile = true ∧ Stretch id m true (.serial next) wrote last ∨
      wrote = [] ∧ last = (m.joinQueue .turnstile id).park id .atTurnstile (.serial next) := by
  cases h with
  | stop h =>
    cases h with
    | queue => exact .inr ⟨rfl, rfl⟩
    | sleep wants => cases wants
  | go h later =>
    cases h with
    | pass free => exact .inl ⟨free, later⟩
    | take wants => cases wants

theorem Stretch.of_serial_held {next : Plan I σ ε α}
    (h : Stretch id m true (.serial next) wrote last) :
    Stretch id ((m.occupyDoor .turnstile).modify id fun t => { t with serial := true }) false next
      wrote last := by
  cases h with
  | stop h => cases h
  | go h later =>
    cases h with
    | serial => exact later

end

end Machine

end SignedOrders.Tasks
