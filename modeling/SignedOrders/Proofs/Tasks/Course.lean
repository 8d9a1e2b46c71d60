import Mathlib.Data.List.Forall2
import SignedOrders.Tasks.Plan

/-!
# Courses of plans

While a task waits, other tasks may change the data, and the world outside may give any
answer.  A **course** of a plan is one way in which it can go: each look at the data may
see whatever is `seen`, each question may get any answer.  The course keeps the questions
that were asked with their answers, in order.

Whatever holds of every course of a plan holds of the task however it is interleaved with
others.  A plan that only reads and is alone goes as a course that always sees the same
data (`ReadOnly.evaluate`).
-/

namespace SignedOrders.Tasks

variable {I : Interface} {σ ε α β : Type}

/-- A question with its answer. -/
structure Exchange (I : Interface) where
  question : I.Question
  answer : I.Answer question

/-- A way in which a plan can go, with the questions it asks and its outcome. -/
inductive Course (seen : σ → Prop) {ε α : Type} :
    Plan I σ ε α → List (Exchange I) → Outcome ε α → Prop where
  | finish (outcome : Outcome ε α) : Course seen (.finish outcome) [] outcome
  | peek {look asked outcome} (s : σ) (hs : seen s) (h : Course seen (look s) asked outcome) :
      Course seen (.peek look) asked outcome
  | mark {change next asked outcome} (h : Course seen next asked outcome) :
      Course seen (.mark change next) asked outcome
  | shared {look asked outcome} (s : σ) (hs : seen s) (h : Course seen (look s) asked outcome) :
      Course seen (.shared look) asked outcome
  | exclusive {attempt next asked outcome} (s t : σ) (hs : seen s) (ht : attempt s = .ok t)
      (h : Course seen next asked outcome) : Course seen (.exclusive attempt next) asked outcome
  | refused {attempt next} (s : σ) (e : ε) (hs : seen s) (he : attempt s = .error e) :
      Course seen (.exclusive attempt next) [] (.failed e)
  | hold {mode next asked outcome} (told : Outcome ε Unit)
      (h : Course seen (next told) asked outcome) : Course seen (.hold mode next) asked outcome
  | relinquish {mode next asked outcome} (h : Course seen next asked outcome) :
      Course seen (.relinquish mode next) asked outcome
  | ask {under question next asked outcome} (answer : I.Answer question)
      (h : Course seen (next answer) asked outcome) :
      Course seen (.ask under question next) (⟨question, answer⟩ :: asked) outcome
  | serial {next asked outcome} (h : Course seen next asked outcome) :
      Course seen (.serial next) asked outcome

variable {seen : σ → Prop} {asked : List (Exchange I)}

theorem Course.mono {seen' : σ → Prop} {p : Plan I σ ε α} {outcome : Outcome ε α}
    (h : Course seen p asked outcome) (more : ∀ s, seen s → seen' s) :
    Course seen' p asked outcome := by
  induction h with
  | finish outcome => exact .finish outcome
  | peek s hs _ ih => exact .peek s (more s hs) ih
  | mark _ ih => exact .mark ih
  | shared s hs _ ih => exact .shared s (more s hs) ih
  | exclusive s t hs ht _ ih => exact .exclusive s t (more s hs) ht ih
  | refused s e hs he => exact .refused s e (more s hs) he
  | hold told _ ih => exact .hold told ih
  | relinquish _ ih => exact .relinquish ih
  | ask answer _ ih => exact .ask answer ih
  | serial _ ih => exact .serial ih

/-! ## What a course that gives a value has gone through -/

theorem course_done_iff {a b : α} :
    Course seen (Plan.done a : Plan I σ ε α) asked (.returned b) ↔ a = b ∧ asked = [] := by
  constructor
  · intro h
    cases h
    exact ⟨rfl, rfl⟩
  · rintro ⟨rfl, rfl⟩
    exact .finish _

theorem course_ofExcept_iff {r : Except ε α} {a : α} :
    Course seen (Plan.ofExcept r : Plan I σ ε α) asked (.returned a) ↔ r = .ok a ∧ asked = [] := by
  cases r with
  | ok b =>
    rw [Except.ok.injEq]
    exact course_done_iff
  | error e =>
    constructor
    · intro h
      cases h
    · rintro ⟨h, -⟩
      cases h

theorem course_read_iff {look : σ → Except ε α} {a : α} :
    Course seen (Plan.read look : Plan I σ ε α) asked (.returned a) ↔
      (∃ s, seen s ∧ look s = .ok a) ∧ asked = [] := by
  constructor
  · intro h
    cases h with
    | shared s hs h =>
      obtain ⟨hlook, rfl⟩ := course_ofExcept_iff.1 h
      exact ⟨⟨s, hs, hlook⟩, rfl⟩
  · rintro ⟨⟨s, hs, hlook⟩, rfl⟩
    exact .shared s hs (course_ofExcept_iff.2 ⟨hlook, rfl⟩)

theorem course_ask_iff {under : Option Mode} {question : I.Question}
    {next : I.Answer question → Plan I σ ε α} {outcome : Outcome ε α} :
    Course seen (.ask under question next) asked outcome ↔
      ∃ answer later, asked = ⟨question, answer⟩ :: later ∧
        Course seen (next answer) later outcome := by
  constructor
  · intro h
    cases h with
    | ask answer h => exact ⟨answer, _, rfl, h⟩
  · rintro ⟨answer, later, rfl, h⟩
    exact .ask answer h

/-- A course of a plan goes on as a course of the plan after it. -/
theorem Course.bind {p : Plan I σ ε α} {f : α → Plan I σ ε β} {a : α} {outcome : Outcome ε β}
    {before after : List (Exchange I)} (first : Course seen p before (.returned a))
    (last : Course seen (f a) after outcome) :
    Course seen (p.bind f) (before ++ after) outcome := by
  -- the outcome of the first course is general, for the induction on it
  generalize hvalue : Outcome.returned a = value at first
  induction first with
  | finish =>
    subst hvalue
    exact last
  | peek s hs _ ih => exact .peek s hs (ih hvalue)
  | mark _ ih => exact .mark (ih hvalue)
  | shared s hs _ ih => exact .shared s hs (ih hvalue)
  | exclusive s t hs ht _ ih => exact .exclusive s t hs ht (ih hvalue)
  | refused => cases hvalue
  | hold told _ ih => exact .hold told (ih hvalue)
  | relinquish _ ih => exact .relinquish (ih hvalue)
  | ask answer _ ih => exact .ask answer (ih hvalue)
  | serial _ ih => exact .serial (ih hvalue)

/-- How a plan that goes on by `f` ends, by how the plan before it has ended. -/
inductive Resumes (seen : σ → Prop) (f : α → Plan I σ ε β) :
    Outcome ε α → List (Exchange I) → Outcome ε β → Prop where
  | returned {a asked outcome} (h : Course seen (f a) asked outcome) :
      Resumes seen f (.returned a) asked outcome
  | failed (e : ε) : Resumes seen f (.failed e) [] (.failed e)
  | cancelled : Resumes seen f .cancelled [] .cancelled

/-- **A course of a plan after another** is a course of the other, and then one of the plan if
the other has given a value. -/
theorem Course.exists_resumes {p : Plan I σ ε α} {f : α → Plan I σ ε β} {outcome : Outcome ε β}
    (h : Course seen (p.bind f) asked outcome) :
    ∃ before after first, asked = before ++ after ∧ Course seen p before first ∧
      Resumes seen f first after outcome := by
  induction p generalizing asked with
  | finish first =>
    cases first with
    | returned a => exact ⟨[], asked, _, rfl, .finish _, .returned h⟩
    | failed e =>
      cases h
      exact ⟨[], [], _, rfl, .finish _, .failed e⟩
    | cancelled =>
      cases h
      exact ⟨[], [], _, rfl, .finish _, .cancelled⟩
  | peek look ih =>
    cases h with
    | peek s hs h =>
      obtain ⟨before, after, first, rfl, course, resumes⟩ := ih s h
      exact ⟨before, after, first, rfl, .peek s hs course, resumes⟩
  | mark change next ih =>
    cases h with
    | mark h =>
      obtain ⟨before, after, first, rfl, course, resumes⟩ := ih h
      exact ⟨before, after, first, rfl, .mark course, resumes⟩
  | shared look ih =>
    cases h with
    | shared s hs h =>
      obtain ⟨before, after, first, rfl, course, resumes⟩ := ih s h
      exact ⟨before, after, first, rfl, .shared s hs course, resumes⟩
  | exclusive attempt next ih =>
    cases h with
    | exclusive s t hs ht h =>
      obtain ⟨before, after, first, rfl, course, resumes⟩ := ih h
      exact ⟨before, after, first, rfl, .exclusive s t hs ht course, resumes⟩
    | refused s e hs he => exact ⟨[], [], _, rfl, .refused s e hs he, .failed e⟩
  | hold mode next ih =>
    cases h with
    | hold told h =>
      obtain ⟨before, after, first, rfl, course, resumes⟩ := ih told h
      exact ⟨before, after, first, rfl, .hold told course, resumes⟩
  | relinquish mode next ih =>
    cases h with
    | relinquish h =>
      obtain ⟨before, after, first, rfl, course, resumes⟩ := ih h
      exact ⟨before, after, first, rfl, .relinquish course, resumes⟩
  | ask under question next ih =>
    cases h with
    | ask answer h =>
      obtain ⟨before, after, first, rfl, course, resumes⟩ := ih answer h
      exact ⟨_ :: before, after, first, rfl, .ask answer course, resumes⟩
  | serial next ih =>
    cases h with
    | serial h =>
      obtain ⟨before, after, first, rfl, course, resumes⟩ := ih h
      exact ⟨before, after, first, rfl, .serial course, resumes⟩

/-- **A plan after another** goes on from a value that the other gives. -/
theorem course_bind_iff {p : Plan I σ ε α} {f : α → Plan I σ ε β} {b : β} :
    Course seen (p.bind f) asked (.returned b) ↔
      ∃ a before after, asked = before ++ after ∧ Course seen p before (.returned a) ∧
        Course seen (f a) after (.returned b) := by
  constructor
  · intro h
    obtain ⟨before, after, first, rfl, course, resumes⟩ := h.exists_resumes
    cases resumes with
    | returned last => exact ⟨_, before, after, rfl, course, last⟩
  · rintro ⟨a, before, after, rfl, first, last⟩
    exact first.bind last

/-! ## Plans for each item of a list -/

/-- Courses of a plan for each item of a list, one after another, with their values. -/
inductive Courses (seen : σ → Prop) (f : α → Plan I σ ε β) :
    List α → List (Exchange I) → List β → Prop where
  | nil : Courses seen f [] [] []
  | cons {a items before after b values} (first : Course seen (f a) before (.returned b))
      (later : Courses seen f items after values) :
      Courses seen f (a :: items) (before ++ after) (b :: values)

theorem Courses.length {f : α → Plan I σ ε β} {items : List α} {values : List β}
    (h : Courses seen f items asked values) : values.length = items.length := by
  induction h with
  | nil => rfl
  | cons _ _ ih => rw [List.length_cons, List.length_cons, ih]

/-- Each value is that of a course of its item's plan. -/
theorem Courses.of_mem_zip {f : α → Plan I σ ε β} {items : List α} {values : List β} {a : α} {b : β}
    (h : Courses seen f items asked values) (hmem : (a, b) ∈ items.zip values) :
    ∃ asked, Course seen (f a) asked (.returned b) := by
  induction h with
  | nil => cases hmem
  | cons first _ ih =>
    rcases List.mem_cons.1 hmem with heq | later
    · cases heq
      exact ⟨_, first⟩
    · exact ih later

/-- What a course is said to give for each item, it gives for all. -/
theorem Courses.forall₂ {f : α → Plan I σ ε β} {items : List α} {values : List β}
    {R : α → β → Prop} {within : List (Exchange I)} (sub : asked ⊆ within)
    (each : ∀ a ∈ items, ∀ segment b, segment ⊆ within →
      Course seen (f a) segment (.returned b) → R a b)
    (h : Courses seen f items asked values) : List.Forall₂ R items values := by
  induction h with
  | nil => exact .nil
  | cons first _ ih =>
    obtain ⟨before, after⟩ := List.append_subset.1 sub
    obtain ⟨mine, others⟩ := List.forall_mem_cons.1 each
    exact .cons (mine _ _ before first) (ih after others)

/-- Plans that ask nothing ask nothing for a list. -/
theorem Courses.asked_eq_nil {f : α → Plan I σ ε β} {items : List α} {values : List β}
    (none : ∀ a asked b, Course seen (f a) asked (.returned b) → asked = [])
    (h : Courses seen f items asked values) : asked = [] := by
  induction h with
  | nil => rfl
  | cons first _ ih => rw [none _ _ _ first, ih, List.nil_append]

/-- The questions of each item's course are a segment of all. -/
theorem Courses.exists_segments {f : α → Plan I σ ε β} {items : List α} {values : List β}
    (h : Courses seen f items asked values) :
    ∃ segments : List (List (Exchange I)), asked = segments.flatten ∧
      segments.length = items.length ∧ ∀ (t : Nat) (a : α), items[t]? = some a →
        ∃ segment b, segments[t]? = some segment ∧ values[t]? = some b ∧
          Course seen (f a) segment (.returned b) := by
  induction h with
  | nil => exact ⟨[], rfl, rfl, fun t a none => by cases none⟩
  | @cons a items before after b values first _ ih =>
    obtain ⟨segments, rfl, length, each⟩ := ih
    -- the first segment is that of the first item
    refine ⟨before :: segments, rfl, congrArg (· + 1) length, fun t c hc => ?_⟩
    cases t with
    | zero =>
      cases hc
      exact ⟨before, b, rfl, rfl, first⟩
    | succ t => exact each t c hc

/-- When each item's plan asks once, the questions are in the order of the items. -/
theorem Courses.exists_exchange {f : α → Plan I σ ε β} {items : List α} {values : List β}
    (one : ∀ a asked b, Course seen (f a) asked (.returned b) → asked.length = 1)
    (h : Courses seen f items asked values) :
    asked.length = items.length ∧ ∀ (j : Nat) (a : α), items[j]? = some a →
      ∃ exchange b, asked[j]? = some exchange ∧ values[j]? = some b ∧
        Course seen (f a) [exchange] (.returned b) := by
  induction h with
  | nil => exact ⟨rfl, fun j a none => by cases none⟩
  | @cons a items before after b values first _ ih =>
    obtain ⟨exchange, rfl⟩ := List.length_eq_one_iff.1 (one _ _ _ first)
    refine ⟨by rw [List.length_append, ih.1, List.length_cons, Nat.add_comm]; rfl, fun j c hc => ?_⟩
    cases j with
    | zero =>
      cases hc
      exact ⟨exchange, b, rfl, rfl, first⟩
    | succ j => exact ih.2 j c hc

/-- When each item's plan gives a list of `k` values and asks `k` questions of a kind, the
values and those questions of item `i` are from place `i * k`. -/
theorem Courses.blocks {f : α → Plan I σ ε (List β)} {p : Exchange I → Bool} {k : Nat}
    {items : List α} {lists : List (List β)}
    (each : ∀ a asked list, Course seen (f a) asked (.returned list) →
      (asked.filter p).length = k ∧ list.length = k)
    (h : Courses seen f items asked lists) :
    (asked.filter p).length = items.length * k ∧ lists.flatten.length = items.length * k ∧
      ∀ (i : Nat) (a : α), items[i]? = some a → ∃ inner list,
        Course seen (f a) inner (.returned list) ∧ ∀ j < k,
          (asked.filter p)[i * k + j]? = (inner.filter p)[j]? ∧
            lists.flatten[i * k + j]? = list[j]? := by
  induction h with
  | nil => exact ⟨(Nat.zero_mul k).symm, (Nat.zero_mul k).symm, fun i a none => by cases none⟩
  | @cons a items before after list lists first _ ih =>
    obtain ⟨asks, gives⟩ := each _ _ _ first
    obtain ⟨asksLater, givesLater, later⟩ := ih
    rw [List.filter_append, List.flatten_cons, List.length_append, List.length_append, asks, gives,
      asksLater, givesLater, List.length_cons, Nat.succ_mul, Nat.add_comm k]
    refine ⟨rfl, rfl, fun i c hc => ?_⟩
    cases i with
    | zero =>
      cases hc
      refine ⟨before, list, first, fun j hj => ?_⟩
      rw [Nat.zero_mul, Nat.zero_add, List.getElem?_append_left (asks.symm ▸ hj),
        List.getElem?_append_left (gives.symm ▸ hj)]
      exact ⟨rfl, rfl⟩
    | succ i =>
      obtain ⟨inner, mine, course, same⟩ := later i c hc
      refine ⟨inner, mine, course, fun j hj => ?_⟩
      -- the block of a later item is as many places further on
      have place : (i + 1) * k + j = k + (i * k + j) := by rw [Nat.succ_mul]; omega
      rw [place, List.getElem?_append_right (asks ▸ Nat.le_add_right ..),
        List.getElem?_append_right (gives ▸ Nat.le_add_right ..), asks, gives,
        Nat.add_sub_cancel_left]
      exact same j hj

theorem courses_of_collectAfter {f : α → Plan I σ ε β} {collected : List β} {items : List α}
    {values : List β}
    (h : Course seen (Plan.collect.collectAfter f collected items) asked (.returned values)) :
    ∃ new, values = collected.reverse ++ new ∧ Courses seen f items asked new := by
  induction items generalizing collected asked with
  | nil =>
    obtain ⟨rfl, rfl⟩ := course_done_iff.1 h
    exact ⟨[], (List.append_nil _).symm, .nil⟩
  | cons a items ih =>
    obtain ⟨b, before, after, rfl, first, last⟩ := course_bind_iff.1 h
    obtain ⟨new, rfl, later⟩ := ih last
    exact ⟨b :: new, by simp, .cons first later⟩

/-- The values collected from a plan for each item are those of its courses. -/
theorem courses_of_collect {f : α → Plan I σ ε β} {items : List α} {values : List β}
    (h : Course seen (Plan.collect f items) asked (.returned values)) :
    Courses seen f items asked values := by
  obtain ⟨new, rfl, later⟩ := courses_of_collectAfter h
  exact later

/-! ## Tasks that are alone -/

/-- A plan after another goes on from the data that the other has left, if it gives a
value. -/
theorem Plan.evaluate_bind (p : Plan I σ ε α) (f : α → Plan I σ ε β)
    (respond : (q : I.Question) → I.Answer q) (s : σ) :
    (p.bind f).evaluate respond s =
      match p.evaluate respond s with
      | (t, .returned a) => (f a).evaluate respond t
      | (t, .failed e) => (t, .failed e)
      | (t, .cancelled) => (t, .cancelled) := by
  induction p generalizing s with
  | finish outcome => cases outcome <;> rfl
  | peek look ih => exact ih s s
  | mark change next ih => exact ih (change s)
  | shared look ih => exact ih s s
  | exclusive attempt next ih =>
    rw [Plan.bind, Plan.evaluate, Plan.evaluate]
    cases attempt s with
    | ok t => exact ih t
    | error e => rfl
  | hold mode next ih => exact ih .cancelled s
  | relinquish mode next ih => exact ih s
  | ask under question next ih => exact ih (respond question) s
  | serial next ih => exact ih s

/-- The plan looks at the data and asks, and does nothing else.  It has the lock only while it
looks, and not when it asks. -/
def ReadOnly : Plan I σ ε α → Prop
  | .finish _ => True
  | .peek look => ∀ s, ReadOnly (look s)
  | .mark .. => False
  | .shared look => ∀ s, ReadOnly (look s)
  | .exclusive .. => False
  | .hold .. => False
  | .relinquish .. => False
  | .ask under _ next => under = none ∧ ∀ answer, ReadOnly (next answer)
  | .serial _ => False

theorem ReadOnly.bind {p : Plan I σ ε α} {f : α → Plan I σ ε β} (hp : ReadOnly p)
    (hf : ∀ a, ReadOnly (f a)) : ReadOnly (p.bind f) := by
  induction p with
  | finish outcome =>
    cases outcome with
    | returned a => exact hf a
    | failed e => trivial
    | cancelled => trivial
  | peek look ih => exact fun s => ih s (hp s)
  | shared look ih => exact fun s => ih s (hp s)
  | ask under question next ih => exact ⟨hp.1, fun answer => ih answer (hp.2 answer)⟩
  | _ => exact hp.elim

theorem readOnly_collectAfter {f : α → Plan I σ ε β} (hf : ∀ a, ReadOnly (f a))
    (collected : List β) (items : List α) :
    ReadOnly (Plan.collect.collectAfter f collected items) := by
  induction items generalizing collected with
  | nil => trivial
  | cons a items ih => exact (hf a).bind fun b => ih (b :: collected)

theorem readOnly_collect {f : α → Plan I σ ε β} (hf : ∀ a, ReadOnly (f a)) (items : List α) :
    ReadOnly (Plan.collect f items) :=
  readOnly_collectAfter hf [] items

/-- **A plan that only reads leaves the data as it is**, and goes as one that always sees
this data and is answered so. -/
theorem ReadOnly.evaluate {p : Plan I σ ε α} (hp : ReadOnly p)
    (respond : (q : I.Question) → I.Answer q) (s : σ) :
    (p.evaluate respond s).1 = s ∧ ∃ asked, Course (· = s) p asked (p.evaluate respond s).2 ∧
      ∀ exchange ∈ asked, exchange.answer = respond exchange.question := by
  induction p with
  | finish outcome => exact ⟨rfl, [], .finish outcome, fun _ h => nomatch h⟩
  | peek look ih =>
    obtain ⟨same, asked, h, answered⟩ := ih s (hp s)
    exact ⟨same, asked, .peek s rfl h, answered⟩
  | shared look ih =>
    obtain ⟨same, asked, h, answered⟩ := ih s (hp s)
    exact ⟨same, asked, .shared s rfl h, answered⟩
  | ask under question next ih =>
    obtain ⟨same, asked, h, answered⟩ := ih (respond question) (hp.2 _)
    exact ⟨same, _ :: asked, .ask _ h, List.forall_mem_cons.2 ⟨rfl, answered⟩⟩
  | _ => exact hp.elim

/-- The value of an outcome that gives one. -/
def Outcome.value? : Outcome ε α → Option α
  | .returned a => some a
  | _ => none

theorem Outcome.exists_of_value? {outcome : Outcome ε α} (h : outcome.value?.isSome = true) :
    ∃ a, outcome = .returned a := by
  cases outcome with
  | returned a => exact ⟨a, rfl⟩
  | failed e => cases h
  | cancelled => cases h

/-- A plan that only reads and gives a value when it is alone has a course that gives it. -/
theorem ReadOnly.exists_course {p : Plan I σ ε α} (hp : ReadOnly p)
    (respond : (q : I.Question) → I.Answer q) (s : σ)
    (h : (p.evaluate respond s).2.value?.isSome = true) :
    ∃ asked a, Course (· = s) p asked (.returned a) := by
  obtain ⟨-, asked, course, -⟩ := hp.evaluate respond s
  obtain ⟨a, outcome⟩ := Outcome.exists_of_value? h
  exact ⟨asked, a, outcome ▸ course⟩

end SignedOrders.Tasks
