import Mathlib.Data.List.Forall2
import SignedOrders.Proofs.Failure
import SignedOrders.Proofs.Tasks.Course

/-!
# What every course of a plan ensures

A plan **ensures** something if all its courses end with it: each gives a value, or fails, as
is said of the questions that were asked and their answers.  No course is then cancelled.  The
data that is seen and the answers are taken from given classes.

There is one rule for each way of building a plan, so that what a plan ensures is read off its
text.
-/

namespace SignedOrders.Tasks

variable {I : Interface} {σ ε α β : Type}

/-- All courses of a plan, on data that is `seen` and with answers that are `fair`, end as
`gives` says of a value, or as `fails` says of an error. -/
def Ensures (seen : σ → Prop) (fair : Exchange I → Prop) (p : Plan I σ ε α)
    (gives : List (Exchange I) → α → Prop) (fails : List (Exchange I) → ε → Prop) : Prop :=
  ∀ asked outcome, Course seen p asked outcome → (∀ exchange ∈ asked, fair exchange) →
    (∃ a, outcome = .returned a ∧ gives asked a) ∨ ∃ e, outcome = .failed e ∧ fails asked e

variable {seen : σ → Prop} {fair : Exchange I → Prop} {gives : List (Exchange I) → α → Prop}
  {fails : List (Exchange I) → ε → Prop}

theorem Ensures.mono {p : Plan I σ ε α} {gives' : List (Exchange I) → α → Prop}
    {fails' : List (Exchange I) → ε → Prop} (h : Ensures seen fair p gives fails)
    (value : ∀ asked a, gives asked a → gives' asked a)
    (error : ∀ asked e, fails asked e → fails' asked e) : Ensures seen fair p gives' fails' := by
  intro asked outcome course answers
  rcases h asked outcome course answers with ⟨a, rfl, given⟩ | ⟨e, rfl, failed⟩
  · exact .inl ⟨a, rfl, value asked a given⟩
  · exact .inr ⟨e, rfl, error asked e failed⟩

theorem ensures_done {a : α} (h : gives [] a) :
    Ensures seen fair (Plan.done a) gives fails := by
  intro asked outcome course _
  cases course
  exact .inl ⟨a, rfl, h⟩

theorem ensures_throw {e : ε} (h : fails [] e) :
    Ensures seen fair (Plan.throw e) gives fails := by
  intro asked outcome course _
  cases course
  exact .inr ⟨e, rfl, h⟩

theorem ensures_ok {r : Except ε α} {a : α} (h : r = .ok a) (value : gives [] a) :
    Ensures seen fair (Plan.ofExcept r) gives fails := by
  subst h
  exact ensures_done value

theorem ensures_error {r : Except ε α} {e : ε} (h : r = .error e) (error : fails [] e) :
    Ensures seen fair (Plan.ofExcept r) gives fails := by
  subst h
  exact ensures_throw error

theorem ensures_ofExcept {r : Except ε α} (value : ∀ a, r = .ok a → gives [] a)
    (error : ∀ e, r = .error e → fails [] e) :
    Ensures seen fair (Plan.ofExcept r) gives fails := by
  cases h : r with
  | ok a => exact ensures_ok rfl (value a h)
  | error e => exact ensures_error rfl (error e h)

theorem ensures_read {look : σ → Except ε α}
    (value : ∀ s a, seen s → look s = .ok a → gives [] a)
    (error : ∀ s e, seen s → look s = .error e → fails [] e) :
    Ensures seen fair (Plan.read look) gives fails := by
  intro asked outcome course answers
  cases course with
  | shared s hs course =>
    exact ensures_ofExcept (fun a => value s a hs) (fun e => error s e hs) asked outcome course
      answers

theorem ensures_ask {under : Option Mode} {question : I.Question}
    {next : I.Answer question → Plan I σ ε α}
    (h : ∀ answer, fair ⟨question, answer⟩ → Ensures seen fair (next answer)
      (fun later => gives (⟨question, answer⟩ :: later))
      (fun later => fails (⟨question, answer⟩ :: later))) :
    Ensures seen fair (.ask under question next) gives fails := by
  intro asked outcome course answers
  obtain ⟨answer, later, rfl, rest⟩ := course_ask_iff.1 course
  obtain ⟨first, answers⟩ := List.forall_mem_cons.1 answers
  exact h answer first later outcome rest answers

/-- **A plan after another** ensures what it ensures after what the other ensures. -/
theorem Ensures.bind {p : Plan I σ ε α} {f : α → Plan I σ ε β}
    {mid : List (Exchange I) → α → Prop} {gives : List (Exchange I) → β → Prop}
    (first : Ensures seen fair p mid fails)
    (rest : ∀ before a, mid before a → Ensures seen fair (f a)
      (fun after => gives (before ++ after)) (fun after => fails (before ++ after))) :
    Ensures seen fair (p.bind f) gives fails := by
  intro asked outcome course answers
  obtain ⟨before, after, ended, rfl, course, resumes⟩ := course.exists_resumes
  obtain ⟨answers, later⟩ := List.forall_mem_append.1 answers
  rcases first before ended course answers with ⟨a, rfl, given⟩ | ⟨e, rfl, failed⟩
  · cases resumes with
    | returned last => exact rest before a given after outcome last later
  · cases resumes with
    | failed => exact .inr ⟨e, rfl, by rwa [List.append_nil]⟩

/-- A plan after another, when it does not matter for a failure what was asked before. -/
theorem Ensures.bind_late {p : Plan I σ ε α} {f : α → Plan I σ ε β} {good : α → Prop}
    {fine : β → Prop} (late : ∀ before after e, fails after e → fails (before ++ after) e)
    (first : Ensures seen fair p (fun _ => good) fails)
    (rest : ∀ a, good a → Ensures seen fair (f a) (fun _ => fine) fails) :
    Ensures seen fair (p.bind f) (fun _ => fine) fails :=
  first.bind fun before a given =>
    (rest a given).mono (fun _ _ => id) fun after e => late before after e

/-- After a computation that has a value, the plan that follows is all that counts. -/
theorem ensures_ok_bind {r : Except ε α} {a : α} {f : α → Plan I σ ε β}
    {gives : List (Exchange I) → β → Prop} (h : r = .ok a)
    (rest : Ensures seen fair (f a) gives fails) :
    Ensures seen fair ((Plan.ofExcept r).bind f) gives fails := by
  subst h
  exact rest

/-- After a computation that fails, no plan follows. -/
theorem ensures_error_bind {r : Except ε α} {e : ε} {f : α → Plan I σ ε β}
    {gives : List (Exchange I) → β → Prop} (h : r = .error e) (error : fails [] e) :
    Ensures seen fair ((Plan.ofExcept r).bind f) gives fails := by
  subst h
  exact ensures_throw error

/-- A computation asks nothing, so that the plan after it is all that counts. -/
theorem ensures_ofExcept_bind {r : Except ε α} {f : α → Plan I σ ε β}
    {gives : List (Exchange I) → β → Prop}
    (value : ∀ a, r = .ok a → Ensures seen fair (f a) gives fails)
    (error : ∀ e, r = .error e → fails [] e) :
    Ensures seen fair ((Plan.ofExcept r).bind f) gives fails := by
  cases h : r with
  | ok a => exact ensures_ok_bind rfl (value a h)
  | error e => exact ensures_error_bind rfl (error e h)

/-- A look at the data asks nothing either. -/
theorem ensures_read_bind {look : σ → Except ε α} {f : α → Plan I σ ε β}
    {gives : List (Exchange I) → β → Prop}
    (value : ∀ s a, seen s → look s = .ok a → Ensures seen fair (f a) gives fails)
    (error : ∀ s e, seen s → look s = .error e → fails [] e) :
    Ensures seen fair ((Plan.read look).bind f) gives fails := by
  have first : Ensures seen fair (Plan.read look)
      (fun asked a => asked = [] ∧ ∃ s, seen s ∧ look s = .ok a) fails :=
    ensures_read (fun s a hs found => ⟨rfl, s, hs, found⟩) error
  refine first.bind ?_
  rintro _ a ⟨rfl, s, hs, found⟩
  exact value s a hs found

/-- **A plan for each item of a list** ensures of all values what it ensures of each; the
questions so far are as `told` says. -/
theorem Ensures.collect {f : α → Plan I σ ε β} {items : List α} {told : List (Exchange I) → Prop}
    {good : α → β → Prop} (none : told [])
    (append : ∀ before after, told before → told after → told (before ++ after))
    (late : ∀ before after e, told before → fails after e → fails (before ++ after) e)
    (each : ∀ a ∈ items, Ensures seen fair (f a) (fun asked b => told asked ∧ good a b) fails) :
    Ensures seen fair (Plan.collect f items)
      (fun asked values => told asked ∧ List.Forall₂ good items values) fails := by
  -- by induction on the items that are left, whatever has been collected so far
  have from_here (items : List α) (collected : List β)
      (each : ∀ a ∈ items, Ensures seen fair (f a) (fun asked b => told asked ∧ good a b) fails) :
      Ensures seen fair (Plan.collect.collectAfter f collected items)
        (fun asked values => told asked ∧
          ∃ new, values = collected.reverse ++ new ∧ List.Forall₂ good items new) fails := by
    induction items generalizing collected with
    | nil => exact ensures_done ⟨none, [], (List.append_nil _).symm, .nil⟩
    | cons a items ih =>
      obtain ⟨first, rest⟩ := List.forall_mem_cons.1 each
      refine first.bind fun before b ⟨asked, mine⟩ => (ih (b :: collected) rest).mono ?_ ?_
      · rintro after _ ⟨later, new, rfl, all⟩
        refine ⟨append before after asked later, b :: new, ?_, .cons mine all⟩
        rw [List.reverse_cons, List.append_assoc, List.singleton_append]
      · exact fun after e => late before after e asked
  refine (from_here items [] each).mono ?_ fun _ _ failed => failed
  rintro asked _ ⟨later, new, rfl, all⟩
  exact ⟨later, all⟩

/-- A plan for each item of a list fails with the one for the first item. -/
theorem Ensures.collect_cons {f : α → Plan I σ ε β} {a : α} {items : List α}
    {good : List β → Prop} (late : ∀ before after e, fails after e → fails (before ++ after) e)
    (first : Ensures seen fair (f a) (fun _ _ => False) fails) :
    Ensures seen fair (Plan.collect f (a :: items)) (fun _ => good) fails :=
  first.bind_late late fun _ no => no.elim

/-- A plan for each item of a list fails as one for an item does, or gives as many values, each
as it is ensured. -/
theorem Ensures.collect_each {f : α → Plan I σ ε β} {items : List α} {good : β → Prop}
    (late : ∀ before after e, fails after e → fails (before ++ after) e)
    (each : ∀ a ∈ items, Ensures seen fair (f a) (fun _ => good) fails) :
    Ensures seen fair (Plan.collect f items)
      (fun _ values => values.length = items.length ∧ ∀ b ∈ values, good b) fails := by
  have all : Ensures seen fair (Plan.collect f items)
      (fun _ values => True ∧ List.Forall₂ (fun _ b => good b) items values) fails :=
    Ensures.collect trivial (fun _ _ _ _ => trivial) (fun before after e _ => late before after e)
      fun a ha => (each a ha).mono (fun _ _ given => ⟨trivial, given⟩) fun _ _ failed => failed
  refine all.mono (fun _ values given => ⟨given.2.length_eq.symm, ?_⟩) fun _ _ failed => failed
  obtain ⟨-, given⟩ := given
  clear each all
  induction given with
  | nil => exact List.forall_mem_nil _
  | cons mine _ ih => exact List.forall_mem_cons.2 ⟨mine, ih⟩

/-- A plan for each item of a list fails as one for an item does, or gives as many values. -/
theorem Ensures.collect_any {f : α → Plan I σ ε β} {items : List α}
    (late : ∀ before after e, fails after e → fails (before ++ after) e)
    (each : ∀ a ∈ items, Ensures seen fair (f a) (fun _ _ => True) fails) :
    Ensures seen fair (Plan.collect f items)
      (fun _ values => values.length = items.length) fails :=
  (Ensures.collect_each late each).mono (fun _ _ given => given.1) fun _ _ failed => failed

end SignedOrders.Tasks
