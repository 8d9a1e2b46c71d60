import SignedOrders.Proofs.Tasks.Course

/-!
# Plans that see one thing

A plan is **determinate** if it only looks and asks, and everything it looks at is the same in
all data that is seen.  When its questions are answered by a function, such a plan can end in
one way only, whatever other tasks do meanwhile (`Determinate.outcome_eq`): the way in which it
ends alone.

Determinate plans are put together like computations that can fail.  The values of such a plan
for each item of a list are collected item by item, and the first item whose plan fails decides
(`collect_cases`).
-/

namespace SignedOrders.Tasks

variable {I : Interface} {σ ε α β : Type}

/-- The outcome of a plan that is alone with the data `s` and is answered by `respond`. -/
def Plan.outcome (respond : (q : I.Question) → I.Answer q) (s : σ) (p : Plan I σ ε α) :
    Outcome ε α :=
  (p.evaluate respond s).2

/-- The plan looks at the data and asks, and gives a value or fails; and what it looks at is
the same in all data that is seen as in `s`. -/
def Determinate (seen : σ → Prop) (s : σ) : Plan I σ ε α → Prop
  | .finish (.returned _) => True
  | .finish (.failed _) => True
  | .finish .cancelled => False
  | .peek look => (∀ t, seen t → look t = look s) ∧ Determinate seen s (look s)
  | .mark .. => False
  | .shared look => (∀ t, seen t → look t = look s) ∧ Determinate seen s (look s)
  | .exclusive .. => False
  | .hold .. => False
  | .relinquish .. => False
  | .ask _ _ next => ∀ answer, Determinate seen s (next answer)
  | .serial _ => False

variable {seen : σ → Prop} {s : σ} {respond : (q : I.Question) → I.Answer q}
  {asked : List (Exchange I)}

/-! ## What is determinate -/

theorem determinate_ofExcept (r : Except ε α) :
    Determinate seen s (Plan.ofExcept r : Plan I σ ε α) := by
  cases r <;> trivial

theorem determinate_read {look : σ → Except ε α} (same : ∀ t, seen t → look t = look s) :
    Determinate seen s (Plan.read look : Plan I σ ε α) :=
  ⟨fun t ht => congrArg Plan.ofExcept (same t ht), determinate_ofExcept (look s)⟩

theorem Determinate.bind {p : Plan I σ ε α} {f : α → Plan I σ ε β} (hp : Determinate seen s p)
    (hf : ∀ a, Determinate seen s (f a)) : Determinate seen s (p.bind f) := by
  induction p with
  | finish outcome =>
    cases outcome with
    | returned a => exact hf a
    | failed e => trivial
    | cancelled => exact hp
  | peek look ih => exact ⟨fun t ht => congrArg (·.bind f) (hp.1 t ht), ih s hp.2⟩
  | shared look ih => exact ⟨fun t ht => congrArg (·.bind f) (hp.1 t ht), ih s hp.2⟩
  | ask under question next ih => exact fun answer => ih answer (hp answer)
  | _ => exact hp.elim

theorem determinate_collectAfter {f : α → Plan I σ ε β} (hf : ∀ a, Determinate seen s (f a))
    (collected : List β) (items : List α) :
    Determinate seen s (Plan.collect.collectAfter f collected items) := by
  induction items generalizing collected with
  | nil => trivial
  | cons a items ih => exact (hf a).bind fun b => ih (b :: collected)

theorem determinate_collect {f : α → Plan I σ ε β} (hf : ∀ a, Determinate seen s (f a))
    (items : List α) : Determinate seen s (Plan.collect f items) :=
  determinate_collectAfter hf [] items

/-! ## How a determinate plan ends -/

/-- **A determinate plan ends as it does alone**, whatever is done to the data meanwhile. -/
theorem Determinate.outcome_eq {p : Plan I σ ε α} {outcome : Outcome ε α}
    (hp : Determinate seen s p) (h : Course seen p asked outcome)
    (answered : ∀ exchange ∈ asked, exchange.answer = respond exchange.question) :
    outcome = p.outcome respond s := by
  induction h with
  | finish outcome => rfl
  | peek t ht _ ih =>
    rw [hp.1 t ht] at ih
    exact ih hp.2 answered
  | shared t ht _ ih =>
    rw [hp.1 t ht] at ih
    exact ih hp.2 answered
  | ask answer _ ih =>
    obtain ⟨same, others⟩ := List.forall_mem_cons.1 answered
    have course := ih (hp answer) others
    rw [show answer = respond _ from same] at course
    exact course
  | _ => exact hp.elim

/-- A determinate plan that is alone leaves the data as it is. -/
theorem Determinate.evaluate_eq {p : Plan I σ ε α} (hp : Determinate seen s p) :
    p.evaluate respond s = (s, p.outcome respond s) := by
  induction p with
  | finish outcome => rfl
  | peek look ih => exact ih s hp.2
  | shared look ih => exact ih s hp.2
  | ask under question next ih => exact ih (respond question) (hp _)
  | _ => exact hp.elim

/-- A determinate plan gives a value or fails. -/
theorem Determinate.outcome_cases (respond : (q : I.Question) → I.Answer q) {p : Plan I σ ε α}
    (hp : Determinate seen s p) :
    (∃ a, p.outcome respond s = .returned a) ∨ ∃ e, p.outcome respond s = .failed e := by
  induction p with
  | finish outcome =>
    cases outcome with
    | returned a => exact .inl ⟨a, rfl⟩
    | failed e => exact .inr ⟨e, rfl⟩
    | cancelled => exact hp.elim
  | peek look ih => exact ih s hp.2
  | shared look ih => exact ih s hp.2
  | ask under question next ih => exact ih (respond question) (hp _)
  | _ => exact hp.elim

theorem Determinate.outcome_bind {p : Plan I σ ε α} {f : α → Plan I σ ε β} {a : α}
    (hp : Determinate seen s p) (h : p.outcome respond s = .returned a) :
    (p.bind f).outcome respond s = (f a).outcome respond s := by
  rw [Plan.outcome, Plan.evaluate_bind, hp.evaluate_eq, h]
  rfl

theorem Determinate.outcome_bind_failed {p : Plan I σ ε α} {f : α → Plan I σ ε β} {e : ε}
    (hp : Determinate seen s p) (h : p.outcome respond s = .failed e) :
    (p.bind f).outcome respond s = .failed e := by
  rw [Plan.outcome, Plan.evaluate_bind, hp.evaluate_eq, h]

/-! ## Item by item -/

/-- Related lists are related place by place. -/
theorem getElem?_of_forall₂ {R : α → β → Prop} {items : List α} {values : List β} {i : ℕ} {a : α}
    (h : List.Forall₂ R items values) (ha : items[i]? = some a) :
    ∃ b, values[i]? = some b ∧ R a b := by
  obtain ⟨hi, rfl⟩ := List.getElem?_eq_some_iff.1 ha
  have hi' : i < values.length := h.length_eq ▸ hi
  exact ⟨values[i], List.getElem?_eq_getElem hi', (List.forall₂_iff_get.1 h).2 i hi hi'⟩

/-- The item at place `i` is the first that does not give a value, and it fails with `e`. -/
def FirstFails (gives : α → Outcome ε β) (items : List α) (i : ℕ) (e : ε) : Prop :=
  (∃ a, items[i]? = some a ∧ gives a = .failed e) ∧
    ∀ j < i, ∀ a, items[j]? = some a → ∃ b, gives a = .returned b

theorem FirstFails.cons {gives : α → Outcome ε β} {items : List α} {i : ℕ} {e : ε} {a : α} {b : β}
    (first : gives a = .returned b) (h : FirstFails gives items i e) :
    FirstFails gives (a :: items) (i + 1) e := by
  refine ⟨h.1, fun j before c hc => ?_⟩
  cases j with
  | zero =>
    cases hc
    exact ⟨b, first⟩
  | succ j => exact h.2 j (Nat.lt_of_succ_lt_succ before) c hc

/-- There is one first failure. -/
theorem FirstFails.unique {gives : α → Outcome ε β} {items : List α} {i j : ℕ} {e e' : ε}
    (h : FirstFails gives items i e) (h' : FirstFails gives items j e') : i = j ∧ e = e' := by
  obtain ⟨⟨a, ha, failed⟩, before⟩ := h
  obtain ⟨⟨a', ha', failed'⟩, before'⟩ := h'
  rcases Nat.lt_trichotomy i j with less | rfl | less
  · obtain ⟨b, gave⟩ := before' i less a ha
    cases failed.symm.trans gave
  · cases ha.symm.trans ha'
    cases failed.symm.trans failed'
    exact ⟨rfl, rfl⟩
  · obtain ⟨b, gave⟩ := before j less a' ha'
    cases failed'.symm.trans gave

theorem collectAfter_cases (respond : (q : I.Question) → I.Answer q) {f : α → Plan I σ ε β}
    (hf : ∀ a, Determinate seen s (f a)) (collected : List β) (items : List α) :
    (∃ values, (Plan.collect.collectAfter f collected items).outcome respond s =
        .returned (collected.reverse ++ values) ∧
      List.Forall₂ (fun a b => (f a).outcome respond s = .returned b) items values) ∨
    ∃ i e, (Plan.collect.collectAfter f collected items).outcome respond s = .failed e ∧
      FirstFails (fun a => (f a).outcome respond s) items i e := by
  induction items generalizing collected with
  | nil =>
    refine .inl ⟨[], ?_, .nil⟩
    rw [List.append_nil]
    rfl
  | cons a items ih =>
    rcases (hf a).outcome_cases respond with ⟨b, gave⟩ | ⟨e, failed⟩
    · have rest : (Plan.collect.collectAfter f collected (a :: items)).outcome respond s = _ :=
        (hf a).outcome_bind gave
      rcases ih (b :: collected) with ⟨values, same, each⟩ | ⟨i, e, same, first⟩
      · rw [List.reverse_cons, List.append_assoc, List.singleton_append] at same
        exact .inl ⟨b :: values, rest.trans same, .cons gave each⟩
      · exact .inr ⟨i + 1, e, rest.trans same, first.cons gave⟩
    · have rest : (Plan.collect.collectAfter f collected (a :: items)).outcome respond s = _ :=
        (hf a).outcome_bind_failed failed
      exact .inr ⟨0, e, rest, ⟨a, rfl, failed⟩, fun j before => absurd before (Nat.not_lt_zero j)⟩

/-- **A list is collected item by item**: either every item gives its value, or the first that
fails decides. -/
theorem collect_cases (respond : (q : I.Question) → I.Answer q) {f : α → Plan I σ ε β}
    (hf : ∀ a, Determinate seen s (f a)) (items : List α) :
    (∃ values, (Plan.collect f items).outcome respond s = .returned values ∧
      List.Forall₂ (fun a b => (f a).outcome respond s = .returned b) items values) ∨
    ∃ i e, (Plan.collect f items).outcome respond s = .failed e ∧
      FirstFails (fun a => (f a).outcome respond s) items i e :=
  collectAfter_cases respond hf [] items

end SignedOrders.Tasks
