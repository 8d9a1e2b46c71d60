import SignedOrders.Proofs.Tasks.Alone
import SignedOrders.Proofs.Tasks.Lock

/-!
# Where tasks ask

A task that asks a question of the world outside is **suspended** until the answer has come.
A plan may ask under the lock and in the turnstile, and a task that does so keeps them while it
is suspended.  Plans say which tasks ask, and where: a plan is **confined** if it asks nothing
under the lock or in the turnstile, and asks at all, or holds the lock until told, only if it may.

Tasks stay confined in every move (`Confined.step`).  So a task that is suspended may ask, and
it has neither the lock nor the turnstile.  The lock counts as it would if all suspended tasks
were left out (`Exact.unsuspended`).
-/

namespace SignedOrders.Tasks

variable {I : Interface} {σ ε α β : Type}

/-- The task has asked, and its answer has not come yet. -/
def Point.suspended : Point ε α → Bool
  | .asking _ | .answered .. => true
  | _ => false

/-- The plan asks questions only if it may, and none under the lock or in the turnstile, and it
holds the lock until told only if it may.  With `inside`, the task is in the turnstile already. -/
def Plan.Confined (asks holds : Prop) : Bool → Plan I σ ε α → Prop
  | _, .finish _ => True
  | inside, .peek look => ∀ s, (look s).Confined asks holds inside
  | inside, .mark _ next => next.Confined asks holds inside
  | inside, .shared look => ∀ s, (look s).Confined asks holds inside
  | inside, .exclusive _ next => next.Confined asks holds inside
  | inside, .hold _ next => holds ∧ ∀ told, (next told).Confined asks holds inside
  | _, .relinquish .. => False
  | inside, .ask under _ next =>
    (asks ∧ inside = false ∧ under = none) ∧ ∀ answer, (next answer).Confined asks holds inside
  | inside, .serial next => inside = false ∧ next.Confined asks holds true

variable {asks holds asks' holds' : Prop} {inside : Bool}

theorem Plan.Confined.mono {p : Plan I σ ε α} (h : p.Confined asks holds inside)
    (may_ask : asks → asks') (may_hold : holds → holds') : p.Confined asks' holds' inside := by
  induction p generalizing inside with
  | finish => trivial
  | peek look ih => exact fun s => ih s (h s)
  | mark change next ih => exact ih h
  | shared look ih => exact fun s => ih s (h s)
  | exclusive attempt next ih => exact ih h
  | hold mode next ih => exact ⟨may_hold h.1, fun told => ih told (h.2 told)⟩
  | relinquish => exact h.elim
  | ask under question next ih =>
    exact ⟨⟨may_ask h.1.1, h.1.2⟩, fun answer => ih answer (h.2 answer)⟩
  | serial next ih => exact ⟨h.1, ih h.2⟩

theorem Plan.Confined.bracketed {p : Plan I σ ε α} (h : p.Confined asks holds inside) :
    p.Bracketed := by
  induction p generalizing inside with
  | finish => trivial
  | peek look ih => exact fun s => ih s (h s)
  | mark change next ih => exact ⟨fun _ => trivial, ih h⟩
  | shared look ih => exact fun s => ih s (h s)
  | exclusive attempt next ih => exact ⟨fun _ _ _ => trivial, ih h⟩
  | hold mode next ih => exact fun told => ih told (h.2 told)
  | relinquish => exact h.elim
  | ask under question next ih => exact fun answer => ih answer (h.2 answer)
  | serial next ih => exact ih h.2

/-- A plan that never holds the lock until told waits for nobody when it is alone. -/
theorem Plan.Confined.unhindered {p : Plan I σ ε α} (h : p.Confined asks False inside) :
    Unhindered inside p := by
  induction p generalizing inside with
  | finish => trivial
  | peek look ih => exact fun s => ih s (h s)
  | mark change next ih => exact ih h
  | shared look ih => exact fun s => ih s (h s)
  | exclusive attempt next ih => exact ih h
  | hold => exact h.1.elim
  | relinquish => exact h.elim
  | ask under question next ih => exact fun answer => ih answer (h.2 answer)
  | serial next ih => exact ⟨h.1, ih h.2⟩

/-- A plan that only reads asks outside the turnstile, without the lock. -/
theorem ReadOnly.confined_bind {p : Plan I σ ε α} {f : α → Plan I σ ε β} (hp : ReadOnly p)
    (may_ask : asks) (hf : ∀ a, (f a).Confined asks holds false) :
    (p.bind f).Confined asks holds false := by
  induction p with
  | finish outcome =>
    cases outcome with
    | returned a => exact hf a
    | failed e => trivial
    | cancelled => trivial
  | peek look ih => exact fun s => ih s (hp s)
  | shared look ih => exact fun s => ih s (hp s)
  | ask under question next ih =>
    exact ⟨⟨may_ask, rfl, hp.1⟩, fun answer => ih answer (hp.2 answer)⟩
  | _ => exact hp.elim

/-- The rest of the task is confined, and the task has neither the turnstile nor the lock while
it is suspended. -/
structure Thread.Confined (asks holds : Prop) (t : Thread I σ ε α) : Prop where
  plan : t.plan.Confined asks holds t.serial
  outside : t.point.suspended = true → asks ∧ t.serial = false ∧ t.point.held? = none

theorem Thread.Confined.mono {t : Thread I σ ε α} (h : t.Confined asks holds)
    (may_ask : asks → asks') (may_hold : holds → holds') : t.Confined asks' holds' :=
  ⟨h.plan.mono may_ask may_hold, fun suspended => (h.outside suspended).imp_left may_ask⟩

/-- A task whose answer is on the way waits on as it did. -/
theorem Thread.Confined.later {t : Thread I σ ε α} {under : Option Mode} {turns : Nat}
    (h : t.Confined asks holds) (point : t.point = .answered under (turns + 1)) :
    { t with point := .answered under turns }.Confined asks holds := by
  refine ⟨h.plan, fun _ => ?_⟩
  obtain ⟨may, outside, free⟩ := h.outside (by rw [point]; rfl)
  rw [point] at free
  exact ⟨may, outside, free⟩

namespace Machine

/-- Every task is confined as it may ask and may hold the lock. -/
def Confined (may_ask may_hold : Nat → Prop) (m : Machine I σ ε α) : Prop :=
  ∀ (id : Nat) (t : Thread I σ ε α), m.scene[id]? = some t →
    t.Confined (may_ask id) (may_hold id)

section

variable {m m' last : Machine I σ ε α} {id : Nat} {held held' : Bool} {p p' : Plan I σ ε α}
  {t : Thread I σ ε α} {new wrote : List Nat} {move : Move I σ ε α}
  {may_ask may_hold : Nat → Prop}

/-! ## A running task -/

theorem Goes.confined (h : Goes id m held p new m' held' p') (found : m.scene[id]? = some t)
    (hp : p.Confined asks holds t.serial) :
    ∃ serial, m'.scene[id]? = some { t with serial } ∧ p'.Confined asks holds serial := by
  cases h with
  | peek => exact ⟨t.serial, found, hp _⟩
  | mark => exact ⟨t.serial, found, hp⟩
  | relinquish => exact hp.elim
  | @take mode => cases mode <;> exact ⟨t.serial, found, hp⟩
  | shared => exact ⟨t.serial, by rw [scene_release]; exact found, hp _⟩
  | exclusive => exact ⟨t.serial, by rw [scene_release]; exact found, hp⟩
  | refused => exact ⟨t.serial, by rw [scene_release]; exact found, trivial⟩
  | hold => exact ⟨t.serial, by rw [scene_release, scene_untell]; exact found, hp.2 _⟩
  | pass => exact ⟨t.serial, found, hp⟩
  | serial => exact ⟨true, (scene_serial m id).trans (congrArg (Option.map _) found), hp.2⟩

theorem Stops.confined (h : Stops id m held p last) (found : m.scene[id]? = some t)
    (hp : p.Confined asks holds t.serial) :
    ∃ u, last.scene[id]? = some u ∧ u.Confined asks holds := by
  cases h with
  | @finish outcome =>
    exact ⟨_, (m.getElem?_scene_retire id outcome).trans (congrArg _ found), trivial, nofun⟩
  | ask =>
    exact ⟨_, (m.getElem?_scene_park id ..).trans (congrArg _ found), hp, fun _ => hp.1⟩
  | @sleep mode =>
    have found' : (m.arrive mode).scene[id]? = some t := by cases mode <;> exact found
    exact ⟨_, ((m.arrive mode).getElem?_scene_park id ..).trans (congrArg _ found'), hp, nofun⟩
  | hold => exact ⟨_, (m.getElem?_scene_park id ..).trans (congrArg _ found), hp, nofun⟩
  | queue => exact ⟨_, (m.getElem?_scene_park id ..).trans (congrArg _ found), hp, nofun⟩

theorem Stretch.confined (h : Stretch id m held p wrote last) (found : m.scene[id]? = some t)
    (hp : p.Confined asks holds t.serial) :
    ∃ u, last.scene[id]? = some u ∧ u.Confined asks holds := by
  induction h generalizing t with
  | stop h => exact h.confined found hp
  | go h _ ih =>
    obtain ⟨serial, found', hp'⟩ := h.confined found hp
    exact ih found' hp'

theorem Wakes.confined (h : Wakes id m t m' held p) (hp : t.plan.Confined asks holds t.serial) :
    p.Confined asks holds t.serial := by
  cases h with
  | @leave _ told =>
    cases plan : t.plan with
    | hold mode next =>
      rw [plan] at hp
      exact hp.2 told
    | _ =>
      rw [plan] at hp
      exact hp
  | withdraw => trivial
  | giveUp => trivial
  | drop => trivial
  | unanswered => trivial
  | _ => exact hp

theorem Turn.confined (h : Turn id m t wrote last) (found : m.scene[id]? = some t.still)
    (ht : t.still.Confined asks holds) :
    ∃ u, last.scene[id]? = some u ∧ u.Confined asks holds := by
  cases h with
  | goes wakes goes =>
    rw [← wakes.scene_eq] at found
    exact goes.confined found (wakes.confined ht.plan)
  | asleep =>
    exact ⟨_, (Machine.getElem?_scene_park ..).trans (congrArg _ found), ht.plan, nofun⟩
  | later point =>
    exact ⟨_, (m.getElem?_scene_awaitAnswer ..).trans (congrArg _ found), ht.later point⟩
  | ended => exact ⟨_, found, ht⟩

/-- A task that runs stays confined. -/
theorem Step.confined (goes : Step m move wrote last) (moves : move.task? = some id)
    (found : m.scene[id]? = some t) (ht : t.Confined asks holds) :
    ∃ u, last.scene[id]? = some u ∧ u.Confined asks holds := by
  have still_of {u : Thread I σ ε α} (found' : m.threads[id]? = some u) :
      u.still.Confined asks holds := by
    rwa [Option.some.inj ((getElem?_scene_of_found found').symm.trans found)]
  cases goes with
  | turn _ found' goes =>
    cases moves
    exact goes.confined (getElem?_scene_of_found found') (still_of found')
  | nobody => cases moves; exact ⟨t, found, ht⟩
  | unready => cases moves; exact ⟨t, found, ht⟩
  | reply found' _ goes =>
    cases moves
    exact goes.confined (getElem?_scene_handBack_of_found found' _) ((still_of found').plan.2 _)
  | delay found' =>
    cases moves
    have asks := still_of found'
    exact ⟨_, (m.getElem?_scene_awaitAnswer ..).trans
      (congrArg _ (getElem?_scene_of_found found')), asks.plan.2 _, fun _ => asks.outside rfl⟩
  | unasked => cases moves; exact ⟨t, found, ht⟩
  | _ => cases moves

/-! ## All tasks -/

theorem confined_initial (data : σ) :
    (initial data : Machine I σ ε α).Confined may_ask may_hold := by
  rintro id t ⟨⟩

/-- **In every move the tasks stay confined.** -/
theorem Confined.step (h : m.Confined may_ask may_hold) (goes : Step m move wrote last)
    (given : ∀ plan, move = .start plan →
      plan.Confined (may_ask m.threads.length) (may_hold m.threads.length) false) :
    last.Confined may_ask may_hold := by
  refine goes.each h (fun id t moves found => goes.confined moves found (h id t found)) ?_
  exact fun plan start => ⟨given plan start, nofun⟩

/-! ## The lock -/

/-- A suspended task does not wait for the lock. -/
theorem sought?_of_suspended {point : Point ε α} (suspended : point.suspended = true) :
    point.sought? = none := by
  cases point with
  | asking => rfl
  | answered => rfl
  | _ => cases suspended

/-- Confined tasks that are suspended do not have the lock. -/
theorem Confined.held?_eq_none (h : m.Confined may_ask may_hold) :
    ∀ t ∈ m.scene, t.point.suspended = true → t.point.held? = none := by
  intro t ht suspended
  obtain ⟨id, found⟩ := List.mem_iff_getElem?.1 ht
  exact ((h id t found).outside suspended).2.2

theorem Reaches.others_eq (h : Reaches m id m' held p) : m'.others id = m.others id := by
  induction h with
  | turn _ _ wakes => exact wakes.others_eq
  | reply => exact others_handBack ..
  | goes _ goes ih => exact goes.others_eq.trans ih

/-- **The lock does not count suspended tasks** that do not have it. -/
theorem Exact.unsuspended {l : List (Thread I σ ε α)} {has : Option Mode} (h : m.Exact l has)
    (apart : ∀ t ∈ l, t.point.suspended = true → t.point.held? = none) :
    m.Exact (l.filter fun t => !t.point.suspended) has := by
  have counted (mode : Mode) :
      insiders (l.filter fun t => !t.point.suspended) has mode = insiders l has mode := by
    unfold insiders
    rw [List.countP_filter]
    refine congrArg (· + _) (List.countP_congr fun t ht => ?_)
    by_cases suspended : t.point.suspended = true
    · simp [suspended, apart t ht suspended]
    · simp [suspended]
  have sought : seekers (l.filter fun t => !t.point.suspended) .exclusive =
      seekers l .exclusive := by
    unfold seekers
    rw [List.countP_filter]
    refine List.countP_congr fun t _ => ?_
    by_cases suspended : t.point.suspended = true
    · simp [suspended, sought?_of_suspended suspended]
    · simp [suspended]
  obtain ⟨h₁, h₂, h₃, h₄, h₅⟩ := h
  rw [← counted] at h₁ h₂ h₃
  rw [← counted, ← counted .shared] at h₄
  rw [← sought] at h₅
  exact ⟨h₁, h₂, h₃, h₄, h₅⟩

/-- A task that is not confined has the lock while it is suspended.  A reader waits until the
answer has come. -/
example :
    let asks : Plan ⟨Unit, fun _ => Unit⟩ Unit Empty Unit :=
      .ask (some .exclusive) () fun _ => .done ()
    let m := (initial ()).after [.start asks, .turn 0, .start (.occupy .shared), .turn 1]
    let last := m.after [.reply 0 ⟨fun _ => (), fun _ => 0⟩, .turn 1]
    m.threads.map (fun t => (t.point.suspended, t.point.held?, t.point.sought?)) =
        [(true, some .exclusive, none), (false, none, some .shared)] ∧
      last.threads.map (fun t => (t.point.suspended, t.point.held?, t.point.sought?)) =
        [(false, none, none), (false, some .shared, none)] := by
  decide +kernel

end

end Machine

end SignedOrders.Tasks
