import SignedOrders.Proofs.Tasks.Changes

/-!
# Tasks that write once

A task **writes** when it changes the data under the exclusive lock.  Some plans write at most
once, and then come to their end without waiting for anything: they return a value that says
so (`Plan.WritesOnce`).  What else such a plan changes is out of sight.

Whenever such a task is interrupted, by a failure or by being cancelled, it has not written
yet.  So a move of its task changes nothing that is in sight and leaves it as it was, or the
task writes, and has ended with a value that says so (`Step.fares`).
-/

namespace SignedOrders.Tasks

variable {I : Interface} {σ ε α β : Type}

/-- What is said of the changes that a task makes. -/
structure Effect (σ α : Type) where
  /-- The data differ only out of sight. -/
  alike : σ → σ → Prop
  equivalence : Equivalence alike
  /-- What the task may change under the exclusive lock. -/
  writes : σ → σ → Prop
  /-- The value says that the task has written. -/
  receipt : α → Prop

/-- The data change as the task may write, apart from what is out of sight. -/
def Effect.Made (e : Effect σ α) (s t : σ) : Prop :=
  ∃ u v, e.alike s u ∧ e.writes u v ∧ e.alike v t

namespace Plan

/-- The plan changes only what is out of sight, and returns a receipt without waiting. -/
def Concludes (e : Effect σ α) : Plan I σ ε α → Prop
  | .finish (.returned a) => e.receipt a
  | .mark change next => (∀ s, e.alike s (change s)) ∧ next.Concludes e
  | _ => False

/-- The plan writes at most once, and returns a receipt exactly if it has written. -/
def WritesOnce (e : Effect σ α) : Plan I σ ε α → Prop
  | .finish (.returned a) => ¬ e.receipt a
  | .finish _ => True
  | .peek look => ∀ s, (look s).WritesOnce e
  | .mark change next => (∀ s, e.alike s (change s)) ∧ next.WritesOnce e
  | .shared look => ∀ s, (look s).WritesOnce e
  | .exclusive attempt next => (∀ s t, attempt s = .ok t → e.writes s t) ∧ next.Concludes e
  | .hold _ next => ∀ told, (next told).WritesOnce e
  | .relinquish .. => False
  | .ask _ _ next => ∀ answer, (next answer).WritesOnce e
  | .serial next => next.WritesOnce e

end Plan

/-- A plan that only reads, and then goes on from the value that it gives. -/
theorem ReadOnly.writesOnce_bind {e : Effect σ β} {p : Plan I σ ε α} {f : α → Plan I σ ε β}
    (hp : ReadOnly p) (hf : ∀ a, (f a).WritesOnce e) : (p.bind f).WritesOnce e := by
  induction p with
  | finish outcome =>
    cases outcome with
    | returned a => exact hf a
    | failed e => trivial
    | cancelled => trivial
  | peek look ih => exact fun s => ih s (hp s)
  | shared look ih => exact fun s => ih s (hp s)
  | ask under question next ih => exact fun answer => ih answer (hp.2 answer)
  | _ => exact hp.elim

/-- The task has not written. -/
structure Thread.Clean (e : Effect σ α) (t : Thread I σ ε α) : Prop where
  plan : t.plan.WritesOnce e
  untold : ∀ a, t.point = .ended (.returned a) → ¬ e.receipt a

namespace Machine

/-- The task has ended with a receipt. -/
def Receives (e : Effect σ α) (m : Machine I σ ε α) (id : Nat) : Prop :=
  ∃ t a, m.scene[id]? = some t ∧ t.point = .ended (.returned a) ∧ e.receipt a

section

variable {e : Effect σ α} {m m' last : Machine I σ ε α} {id : Nat} {held held' : Bool}
  {p p' : Plan I σ ε α} {t : Thread I σ ε α} {new wrote : List Nat} {move : Move I σ ε α}

/-! ## A running task -/

/-- A task that has written comes to its end in the same stretch. -/
theorem Stretch.concludes (h : Stretch id m false p wrote last) (hp : p.Concludes e)
    (found : m.scene[id]? = some t) :
    wrote = [] ∧ e.alike m.data last.data ∧ last.Receives e id := by
  induction p generalizing m with
  | finish outcome =>
    cases outcome with
    | returned a =>
      obtain ⟨rfl, rfl⟩ := h.of_finish
      rw [data_retire]
      exact ⟨rfl, e.equivalence.refl _, _, a,
        (m.getElem?_scene_retire id _).trans (congrArg _ found), rfl, hp⟩
    | _ => exact hp.elim
  | mark change next ih =>
    obtain ⟨same, alike, receives⟩ := ih h.of_mark hp.2 found
    exact ⟨same, e.equivalence.trans (hp.1 m.data) alike, receives⟩
  | _ => exact hp.elim

/-- A step of a task that has not written. -/
theorem Goes.writesOnce (h : Goes id m held p new m' held' p') (hp : p.WritesOnce e) :
    (new = [] ∧ e.alike m.data m'.data ∧ p'.WritesOnce e) ∨
      (new = [id] ∧ held' = false ∧ e.writes m.data m'.data ∧ p'.Concludes e) := by
  have refl := e.equivalence.refl m.data
  cases h with
  | peek => exact .inl ⟨rfl, refl, hp _⟩
  | mark => exact .inl ⟨rfl, hp.1 _, hp.2⟩
  | relinquish => exact hp.elim
  | @take mode => exact .inl ⟨rfl, by cases mode <;> exact refl, hp⟩
  | shared =>
    rw [data_release]
    exact .inl ⟨rfl, refl, hp _⟩
  | exclusive done =>
    rw [data_release]
    exact .inr ⟨rfl, rfl, hp.1 _ _ done, hp.2⟩
  | refused =>
    rw [data_release]
    exact .inl ⟨rfl, refl, trivial⟩
  | hold =>
    rw [data_release]
    exact .inl ⟨rfl, refl, hp _⟩
  | pass => exact .inl ⟨rfl, refl, hp⟩
  | serial => exact .inl ⟨rfl, refl, hp⟩

/-- A task that has not written stops where it still has not. -/
theorem Stops.clean (h : Stops id m held p last) (hp : p.WritesOnce e)
    (found : m.scene[id]? = some t) : ∃ u, last.scene[id]? = some u ∧ u.Clean e := by
  cases h with
  | @finish outcome =>
    refine ⟨_, (m.getElem?_scene_retire id outcome).trans (congrArg _ found), hp, ?_⟩
    rintro a ⟨⟩
    exact hp
  | ask =>
    exact ⟨_, (m.getElem?_scene_park id ..).trans (congrArg _ found), hp, by rintro _ ⟨⟩⟩
  | @sleep mode =>
    have found' : (m.arrive mode).scene[id]? = some t := by cases mode <;> exact found
    exact ⟨_, ((m.arrive mode).getElem?_scene_park id ..).trans (congrArg _ found'), hp,
      by rintro _ ⟨⟩⟩
  | hold =>
    exact ⟨_, (m.getElem?_scene_park id ..).trans (congrArg _ found), hp, by rintro _ ⟨⟩⟩
  | queue =>
    exact ⟨_, (m.getElem?_scene_park id ..).trans (congrArg _ found), hp, by rintro _ ⟨⟩⟩

/-- What has become of a task that had not written: it still has not, or it has ended with a
receipt. -/
def Fares (e : Effect σ α) (id : Nat) (m : Machine I σ ε α) (wrote : List Nat)
    (last : Machine I σ ε α) : Prop :=
  (wrote = [] ∧ e.alike m.data last.data ∧ ∃ u, last.scene[id]? = some u ∧ u.Clean e) ∨
    wrote = [id] ∧ e.Made m.data last.data ∧ last.Receives e id

theorem Fares.of_alike (h : m'.Fares e id wrote last) (alike : e.alike m.data m'.data) :
    m.Fares e id wrote last := by
  rcases h with ⟨nothing, alike', clean⟩ | ⟨wrote, ⟨s, t, before, writes, after⟩, receives⟩
  · exact .inl ⟨nothing, e.equivalence.trans alike alike', clean⟩
  · exact .inr ⟨wrote, ⟨s, t, e.equivalence.trans alike before, writes, after⟩, receives⟩

/-- **A stretch of a task that has not written.** -/
theorem Stretch.fares (h : Stretch id m held p wrote last) (hp : p.WritesOnce e)
    (found : m.scene[id]? = some t) : m.Fares e id wrote last := by
  induction h generalizing t with
  | stop h =>
    refine .inl ⟨rfl, ?_, h.clean hp found⟩
    rw [h.data_eq]
    exact e.equivalence.refl _
  | go h later ih =>
    obtain ⟨serial, found'⟩ := h.exists_found found
    rcases h.writesOnce hp with ⟨rfl, alike, hp'⟩ | ⟨rfl, rfl, writes, hp'⟩
    · exact (ih hp' found').of_alike alike
    · obtain ⟨rfl, alike, receives⟩ := later.concludes hp' found'
      exact .inr ⟨rfl, ⟨_, _, e.equivalence.refl _, writes, alike⟩, receives⟩

/-! ## A move -/

theorem Wakes.writesOnce (h : Wakes id m t m' held p) (hp : t.plan.WritesOnce e) :
    p.WritesOnce e := by
  cases h with
  | leave =>
    cases plan : t.plan with
    | hold mode next =>
      rw [plan] at hp
      exact hp _
    | _ =>
      rw [plan] at hp
      exact hp
  | withdraw => trivial
  | giveUp => trivial
  | drop => trivial
  | unanswered => trivial
  | _ => exact hp

theorem Turn.fares (h : Turn id m t wrote last) (clean : t.Clean e)
    (found : m.scene[id]? = some t.still) : m.Fares e id wrote last := by
  have refl := e.equivalence.refl m.data
  cases h with
  | goes wakes goes =>
    rw [← wakes.scene_eq] at found
    refine (goes.fares (wakes.writesOnce clean.plan) found).of_alike ?_
    rw [wakes.data_eq]
    exact refl
  | asleep =>
    exact .inl ⟨rfl, refl, _, (Machine.getElem?_scene_park ..).trans (congrArg _ found),
      clean.plan, by rintro _ ⟨⟩⟩
  | later =>
    exact .inl ⟨rfl, refl, _, (m.getElem?_scene_awaitAnswer ..).trans (congrArg _ found),
      clean.plan, by rintro _ ⟨⟩⟩
  | ended => exact .inl ⟨rfl, refl, _, found, clean.plan, clean.untold⟩

/-- **A move of a task that has not written** changes nothing in sight and leaves the task as
it was, or the task writes and ends with a receipt. -/
theorem Step.fares (h : Step m move wrote last) (moves : move.task? = some id)
    (found : m.scene[id]? = some t) (clean : t.Clean e) : m.Fares e id wrote last := by
  have still {u : Thread I σ ε α} (found' : m.threads[id]? = some u) : u.still = t :=
    Option.some.inj ((getElem?_scene_of_found found').symm.trans found)
  have idle : m.Fares e id [] m := .inl ⟨rfl, e.equivalence.refl _, t, found, clean⟩
  cases h with
  | turn _ found' goes =>
    cases moves
    rw [← still found'] at clean
    exact goes.fares ⟨clean.plan, clean.untold⟩ (getElem?_scene_of_found found')
  | nobody => cases moves; exact idle
  | unready => cases moves; exact idle
  | reply found' _ goes =>
    cases moves
    rw [← still found'] at clean
    refine Fares.of_alike (goes.fares (clean.plan _) (getElem?_scene_handBack_of_found found' _)) ?_
    rw [data_handBack]
    exact e.equivalence.refl _
  | delay found' =>
    cases moves
    rw [← still found'] at clean
    exact .inl ⟨rfl, e.equivalence.refl _, _,
      (m.getElem?_scene_awaitAnswer ..).trans (congrArg _ found), clean.plan _, by rintro _ ⟨⟩⟩
  | unasked => cases moves; exact idle
  | _ => cases moves

/-- A task that has ended does nothing more. -/
theorem Turn.of_ended {outcome : Outcome ε α} (h : Turn id m t wrote last)
    (ended : t.point = .ended outcome) : wrote = [] ∧ last = m := by
  cases h with
  | goes wakes => exact absurd ended (wakes.going outcome)
  | asleep point => cases ended.symm.trans point
  | later point => cases ended.symm.trans point
  | ended => exact ⟨rfl, rfl⟩

theorem Step.of_ended {outcome : Outcome ε α} (h : Step m move wrote last)
    (moves : move.task? = some id) (found : m.scene[id]? = some t)
    (ended : t.point = .ended outcome) :
    wrote = [] ∧ last.data = m.data ∧ last.scene = m.scene := by
  have point {u : Thread I σ ε α} (found' : m.threads[id]? = some u) :
      u.point = .ended outcome := by
    rw [← Option.some.inj ((getElem?_scene_of_found found').symm.trans found)] at ended
    exact ended
  cases h with
  | turn _ found' goes =>
    cases moves
    obtain ⟨rfl, rfl⟩ := goes.of_ended (point found')
    exact ⟨rfl, rfl, rfl⟩
  | nobody => exact ⟨rfl, rfl, rfl⟩
  | unready => exact ⟨rfl, rfl, rfl⟩
  | reply found' => cases moves; cases point found'
  | delay found' => cases moves; cases point found'
  | unasked => exact ⟨rfl, rfl, rfl⟩
  | _ => cases moves

end

end Machine

end SignedOrders.Tasks
