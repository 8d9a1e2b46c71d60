import Mathlib.Logic.Relation
import SignedOrders.Proofs.Tasks.Course
import SignedOrders.Proofs.Tasks.Steps

/-!
# What tasks change

A task changes the data only by the steps of its plan.  If all of these are **within** a
relation, then whatever a machine does, its data change by that relation, however tasks
are interleaved and cancelled (`Abides.step`).
-/

namespace SignedOrders.Tasks

open Relation

variable {I : Interface} {σ ε α β : Type}

/-- A property of what is left of a plan, with the data, that each step of a plan keeps. -/
structure Kept (K : σ → Plan I σ ε α → Prop) : Prop where
  peek : ∀ {s look}, K s (.peek look) → K s (look s)
  mark : ∀ {s change next}, K s (.mark change next) → K (change s) next
  relinquish : ∀ {s mode next}, K s (.relinquish mode next) → K s next
  shared : ∀ {s look}, K s (.shared look) → K s (look s)
  exclusive : ∀ {s t attempt next}, K s (.exclusive attempt next) → attempt s = .ok t → K t next
  refused : ∀ {s e attempt next}, K s (.exclusive attempt next) → attempt s = .error e →
    K s (.finish (.failed e))
  hold : ∀ {s mode next told}, K s (.hold mode next) → K s (next told)
  ask : ∀ {s under question next answer}, K s (.ask under question next) → K s (next answer)
  serial : ∀ {s next}, K s (.serial next) → K s next
  cancelled : ∀ {s p}, K s p → K s (.finish .cancelled)

/-- The plan changes the data only as the relation says, and gives the lock back only after
it has taken it. -/
def Plan.Within (P : σ → σ → Prop) : Plan I σ ε α → Prop
  | .finish _ => True
  | .peek look => ∀ s, (look s).Within P
  | .mark change next => (∀ s, P s (change s)) ∧ next.Within P
  | .shared look => ∀ s, (look s).Within P
  | .exclusive attempt next => (∀ s t, attempt s = .ok t → P s t) ∧ next.Within P
  | .hold _ next => ∀ told, (next told).Within P
  | .relinquish .. => False
  | .ask _ _ next => ∀ answer, (next answer).Within P
  | .serial next => next.Within P

theorem Plan.Within.mono {P Q : σ → σ → Prop} {p : Plan I σ ε α} (h : p.Within P)
    (hPQ : ∀ s t, P s t → Q s t) : p.Within Q := by
  induction p with
  | finish => trivial
  | peek look ih => exact fun s => ih s (h s)
  | mark change next ih => exact ⟨fun s => hPQ _ _ (h.1 s), ih h.2⟩
  | shared look ih => exact fun s => ih s (h s)
  | exclusive attempt next ih => exact ⟨fun s t ht => hPQ _ _ (h.1 s t ht), ih h.2⟩
  | hold mode next ih => exact fun told => ih told (h told)
  | relinquish => exact h.elim
  | ask under question next ih => exact fun answer => ih answer (h answer)
  | serial next ih => exact ih h

/-- A plan that only reads, and then goes on from the value that it gives, changes what the
later plan changes. -/
theorem ReadOnly.within_bind {P : σ → σ → Prop} {p : Plan I σ ε α} {f : α → Plan I σ ε β}
    (hp : ReadOnly p)
    (hf : ∀ asked a, Course (fun _ => True) p asked (.returned a) → (f a).Within P) :
    (p.bind f).Within P := by
  induction p with
  | finish outcome =>
    cases outcome with
    | returned a => exact hf [] a (.finish _)
    | failed e => trivial
    | cancelled => trivial
  | peek look ih => exact fun s => ih s (hp s) fun asked a h => hf asked a (.peek s trivial h)
  | shared look ih => exact fun s => ih s (hp s) fun asked a h => hf asked a (.shared s trivial h)
  | ask under question next ih =>
    exact fun answer => ih answer (hp.2 answer) fun asked a h => hf _ a (.ask answer h)
  | _ => exact hp.elim

/-- A plan within a relation changes the data by it, step by step. -/
theorem kept_within (P : σ → σ → Prop) (s₀ : σ) :
    Kept fun s (p : Plan I σ ε α) => p.Within P ∧ ReflTransGen P s₀ s where
  peek h := ⟨h.1 _, h.2⟩
  mark h := ⟨h.1.2, h.2.tail (h.1.1 _)⟩
  relinquish h := h.1.elim
  shared h := ⟨h.1 _, h.2⟩
  exclusive h done := ⟨h.1.2, h.2.tail (h.1.1 _ _ done)⟩
  refused h _ := ⟨trivial, h.2⟩
  hold h := ⟨h.1 _, h.2⟩
  ask h := ⟨h.1 _, h.2⟩
  serial h := h
  cancelled h := ⟨trivial, h.2⟩

namespace Machine

variable {m m' last : Machine I σ ε α} {id : Nat} {held held' : Bool} {p p' : Plan I σ ε α}
  {t : Thread I σ ε α} {new wrote : List Nat}

/-! ## The data -/

theorem data_release (m : Machine I σ ε α) (mode : Mode) : (m.release mode).data = m.data := by
  show (m.release mode).core.data = m.core.data
  cases mode with
  | shared => rw [core_release_shared]
  | exclusive => rw [core_release_exclusive]

theorem data_handBack (m : Machine I σ ε α) (under : Option Mode) :
    (m.handBack under).data = m.data := by
  cases under with
  | none => rfl
  | some mode => exact m.data_release mode

theorem data_withdraw (m : Machine I σ ε α) (mode : Mode) : (m.withdraw mode).data = m.data := by
  cases mode with
  | shared => rfl
  | exclusive =>
    show (m.withdraw .exclusive).core.data = m.core.data
    rw [core_withdraw_exclusive]

theorem data_retire (m : Machine I σ ε α) (id : Nat) (outcome : Outcome ε α) :
    (m.retire id outcome).data = m.data := by
  show (m.retire id outcome).frame.data = m.frame.data
  rw [frame_retire]

theorem data_cancel (m : Machine I σ ε α) (id : Nat) : (m.cancel id).data = m.data := by
  show (m.cancel id).core.data = m.core.data
  rw [core_cancel]

theorem data_tell (m : Machine I σ ε α) (id : Nat) (told : Outcome ε Unit) :
    (m.tell id told).data = m.data := by
  show (m.tell id told).core.data = m.core.data
  rw [core_tell]

theorem Stops.data_eq (h : Stops id m held p last) : last.data = m.data := by
  cases h with
  | finish => exact data_retire ..
  | sleep => rename_i mode _ _; cases mode <;> rfl
  | _ => rfl

theorem Wakes.data_eq (h : Wakes id m t m' held p) : m'.data = m.data := by
  cases h with
  | again => rename_i mode _ _ _; cases mode <;> rfl
  | withdraw => exact data_withdraw ..
  | leave => exact data_release ..
  | giveUp =>
    show (m.giveUp .turnstile id).frame.data = m.frame.data
    rw [frame_giveUp]
  | answered => exact data_handBack ..
  | unanswered => exact data_handBack ..
  | _ => rfl

/-! ## A running task -/

section

variable {K : σ → Plan I σ ε α → Prop}

theorem Goes.kept (h : Goes id m held p new m' held' p') (kept : Kept K) (hp : K m.data p) :
    K m'.data p' := by
  cases h with
  | peek => exact kept.peek hp
  | mark => exact kept.mark hp
  | relinquish =>
    rw [data_release]
    exact kept.relinquish hp
  | take => rename_i mode _ _; cases mode <;> exact hp
  | shared =>
    rw [data_release]
    exact kept.shared hp
  | exclusive done =>
    rw [data_release]
    exact kept.exclusive hp done
  | refused refused =>
    rw [data_release]
    exact kept.refused hp refused
  | hold =>
    rw [data_release]
    exact kept.hold hp
  | pass => exact hp
  | serial => exact kept.serial hp

/-- **A stretch keeps what each step of a plan keeps.** -/
theorem Stretch.kept (h : Stretch id m held p wrote last) (kept : Kept K) (hp : K m.data p)
    (found : m.scene[id]? = some t) : ∃ t, last.scene[id]? = some t ∧ K last.data t.plan := by
  induction h generalizing t with
  | stop h =>
    obtain ⟨t, found, same, -⟩ := h.exists_found found
    refine ⟨t, found, ?_⟩
    rw [h.data_eq, same]
    exact hp
  | go h _ ih =>
    obtain ⟨serial, found⟩ := h.exists_found found
    exact ih (h.kept kept hp) found

theorem Wakes.kept (h : Wakes id m t m' held p) (kept : Kept K) (hp : K m.data t.plan) :
    K m'.data p := by
  rw [h.data_eq]
  cases h with
  | leave =>
    cases plan : t.plan with
    | hold mode next =>
      rw [plan] at hp
      exact kept.hold hp
    | _ =>
      rw [plan] at hp
      exact hp
  | withdraw => exact kept.cancelled hp
  | giveUp => exact kept.cancelled hp
  | drop => exact kept.cancelled hp
  | unanswered => exact kept.cancelled hp
  | _ => exact hp

theorem Turn.kept (h : Turn id m t wrote last) (kept : Kept K) (hp : K m.data t.plan)
    (found : m.scene[id]? = some t.still) :
    ∃ t, last.scene[id]? = some t ∧ K last.data t.plan := by
  cases h with
  | goes wakes goes =>
    rw [← wakes.scene_eq] at found
    exact goes.kept kept (wakes.kept kept hp) found
  | asleep => exact ⟨_, (Machine.getElem?_scene_park ..).trans (congrArg _ found), hp⟩
  | later => exact ⟨_, (m.getElem?_scene_awaitAnswer ..).trans (congrArg _ found), hp⟩
  | ended => exact ⟨_, found, hp⟩

/-- **What each step of a plan keeps is kept in every move of its task.** -/
theorem Step.kept {move : Move I σ ε α} (h : Step m move wrote last) (kept : Kept K)
    (moves : move.task? = some id) (found : m.scene[id]? = some t) (hp : K m.data t.plan) :
    ∃ t, last.scene[id]? = some t ∧ K last.data t.plan := by
  have plan_of {u : Thread I σ ε α} (found' : m.threads[id]? = some u) : K m.data u.plan := by
    have same := (getElem?_scene_of_found found').symm.trans found
    rw [← Option.some.inj same] at hp
    exact hp
  cases h with
  | turn _ found' goes =>
    cases moves
    exact goes.kept kept (plan_of found') (getElem?_scene_of_found found')
  | nobody => cases moves; exact ⟨t, found, hp⟩
  | unready => cases moves; exact ⟨t, found, hp⟩
  | reply found' _ goes =>
    cases moves
    refine goes.kept kept ?_ (getElem?_scene_handBack_of_found found' _)
    rw [data_handBack]
    exact kept.ask (plan_of found')
  | delay found' =>
    cases moves
    exact ⟨_, (m.getElem?_scene_awaitAnswer ..).trans
      (congrArg _ (getElem?_scene_of_found found')), kept.ask (plan_of found')⟩
  | unasked => cases moves; exact ⟨t, found, hp⟩
  | _ => cases moves

end

/-! ## All tasks -/

/-- What each task still has to do is within the relation that it has been given. -/
def Abides (P : Nat → σ → σ → Prop) (m : Machine I σ ε α) : Prop :=
  ∀ id (t : Thread I σ ε α), m.scene[id]? = some t → t.plan.Within (P id)

variable {P : Nat → σ → σ → Prop} {move : Move I σ ε α}

theorem abides_initial (data : σ) : (initial data : Machine I σ ε α).Abides P := by
  rintro id t ⟨⟩

/-- Where no task runs, the data stay. -/
theorem Step.data_eq (goes : Step m move wrote last) (idle : move.task? = none) :
    last.data = m.data := by
  cases goes with
  | cancel => exact data_cancel ..
  | tell => exact data_tell ..
  | turn => cases idle
  | reply => cases idle
  | delay => cases idle
  | _ => rfl

/-- Nothing happens when a task is to run that does not exist. -/
theorem Step.absent (goes : Step m move wrote last) (moves : move.task? = some id)
    (none_found : m.scene[id]? = none) :
    last.scene[id]? = none ∧ last.data = m.data ∧ wrote = [] := by
  have unfound {t : Thread I σ ε α} (found : m.threads[id]? = some t) : False := by
    cases none_found.symm.trans (getElem?_scene_of_found found)
  cases goes with
  | turn _ found => cases moves; exact (unfound found).elim
  | nobody => exact ⟨none_found, rfl, rfl⟩
  | unready => exact ⟨none_found, rfl, rfl⟩
  | reply found => cases moves; exact (unfound found).elim
  | delay found => cases moves; exact (unfound found).elim
  | unasked => exact ⟨none_found, rfl, rfl⟩
  | _ => cases moves

/-- A task after a move was there before and has run in it, or has not run and stands as it
stood, or has just started. -/
theorem Step.before_cases (goes : Step m move wrote last) {u : Thread I σ ε α}
    (found : last.scene[id]? = some u) :
    (move.task? = some id ∧ ∃ t, m.scene[id]? = some t) ∨
      (move.task? ≠ some id ∧ m.scene[id]? = some u) ∨
        id = m.threads.length ∧ move = .start u.plan ∧
          u = ⟨u.plan, .fresh, .pending, none, false⟩ := by
  by_cases moves : move.task? = some id
  · cases before : m.scene[id]? with
    | some t => exact .inl ⟨moves, t, rfl⟩
    | none => cases found.symm.trans (goes.absent moves before).1
  · rcases goes.found_cases found with moves' | same | started
    · exact absurd moves' moves
    · exact .inr (.inl ⟨moves, same⟩)
    · exact .inr (.inr started)

/-- **What holds of each task** holds after a move, if the task that runs keeps it and a new
task has it. -/
theorem Step.each {Q : Nat → Thread I σ ε α → Prop} (goes : Step m move wrote last)
    (each : ∀ id t, m.scene[id]? = some t → Q id t)
    (moved : ∀ id t, move.task? = some id → m.scene[id]? = some t →
      ∃ u, last.scene[id]? = some u ∧ Q id u)
    (started : ∀ plan, move = .start plan →
      Q m.threads.length ⟨plan, .fresh, .pending, none, false⟩) :
    ∀ id u, last.scene[id]? = some u → Q id u := by
  intro id u found
  rcases goes.before_cases found with ⟨moves, t, before⟩ | ⟨-, same⟩ | ⟨rfl, start, fresh⟩
  · obtain ⟨v, found', kept⟩ := moved id t moves before
    rwa [Option.some.inj (found.symm.trans found')]
  · exact each id u same
  · rw [fresh]
    exact started u.plan start

/-- Nothing changes when a task is to run that has not been started. -/
theorem Step.idle (goes : Step m move wrote last) (moves : move.task? = some id)
    (unstarted : m.threads.length ≤ id) : last.data = m.data ∧ wrote = [] := by
  have none_found : m.scene[id]? = none := by
    rw [List.getElem?_eq_none_iff, length_scene]
    exact unstarted
  exact (goes.absent moves none_found).2

/-- **In a move, only the task that runs changes the data**, as it has been given. -/
theorem Abides.step (h : m.Abides P) (goes : Step m move wrote last)
    (given : ∀ plan, move = .start plan → plan.Within (P m.threads.length)) :
    last.Abides P ∧
      (last.data = m.data ∨ ∃ id, move.task? = some id ∧ ReflTransGen (P id) m.data last.data) := by
  -- the task that runs keeps to the relation that it has been given
  have moved {id : Nat} {t : Thread I σ ε α} (moves : move.task? = some id)
      (found : m.scene[id]? = some t) :
      ∃ u, last.scene[id]? = some u ∧ u.plan.Within (P id) ∧
        ReflTransGen (P id) m.data last.data :=
    goes.kept (kept_within (P id) m.data) moves found ⟨h id t found, .refl⟩
  constructor
  · refine goes.each h (fun id t moves found => ?_) given
    obtain ⟨u, found', within, -⟩ := moved moves found
    exact ⟨u, found', within⟩
  · cases moves : move.task? with
    | none => exact .inl (goes.data_eq moves)
    | some id =>
      cases before : m.scene[id]? with
      | some t =>
        obtain ⟨-, -, -, changed⟩ := moved moves before
        exact .inr ⟨id, rfl, changed⟩
      | none => exact .inl (goes.absent moves before).2.1

end Machine

end SignedOrders.Tasks
