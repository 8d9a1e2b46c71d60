import SignedOrders.Proofs.Session.Consumed
import SignedOrders.Session.Operation

/-!
# Builds and commits of a session that does one thing at a time

A build keeps its request and changes nothing else (`evaluate_keep`).  A commit either
consumes the nonces of its request and marks it as committed, or it changes nothing
(`evaluate_commitPlan`).
-/

namespace SignedOrders.Session

open Tasks

variable (respond : (question : signing.Question) → signing.Answer question) (s : Session)
  (id : Nat)

@[simp] theorem poolOf_enroll (s : Session) (id : Nat) (request : SignedRequest) (asset : String) :
    (s.enroll id request).poolOf asset = s.poolOf asset := rfl

@[simp] theorem poolOf_revise (s : Session) (id : Nat) (f : SignedRequest → SignedRequest)
    (asset : String) : (s.revise id f).poolOf asset = s.poolOf asset := rfl

/-- **A build** keeps the request that it gives, which has gone through a course of the
build, and otherwise leaves the session as it is. -/
theorem evaluate_keep {build : Action SignedRequest} (reads : ReadOnly build) :
    (∃ asked request, Course (· = s) build asked (.returned request) ∧
        (keep id build).evaluate respond s =
          (s.enroll id request, .returned (.built request))) ∨
      ((keep id build).evaluate respond s).1 = s ∧
        ∀ reply, ((keep id build).evaluate respond s).2 ≠ .returned reply := by
  obtain ⟨same, asked, course, -⟩ := reads.evaluate respond s
  rw [keep, Plan.evaluate_bind]
  revert same course
  obtain ⟨t, outcome⟩ := build.evaluate respond s
  rintro rfl course
  cases outcome with
  | returned request => exact .inl ⟨asked, request, course, rfl⟩
  | failed e => exact .inr ⟨rfl, by rintro _ ⟨⟩⟩
  | cancelled => exact .inr ⟨rfl, by rintro _ ⟨⟩⟩

/-- A commit of a request that has not been committed depends on whether its nonces can be
consumed. -/
theorem evaluate_commitPlan_of_found {request : SignedRequest} (settled : Option (List Combination))
    (found : s.request? id = some request) (once : request.committed = false) :
    (commitPlan id settled).evaluate respond s =
      match s.advance (request.consumed settled) with
      | .ok t => (t.revise id fun request => { request with committed := true },
          .returned (.committed true))
      | .error e => (s, .failed e) := by
  simp only [commitPlan, Plan.evaluate, found, once, Bool.false_eq_true, if_false]
  cases s.advance (request.consumed settled) <;> rfl

/-- **A commit** consumes the nonces of its request, which had not been committed, or
leaves the session as it is. -/
theorem evaluate_commitPlan (settled : Option (List Combination)) :
    (∃ request t, s.request? id = some request ∧ request.committed = false ∧
        s.advance (request.consumed settled) = .ok t ∧
        (commitPlan id settled).evaluate respond s =
          (t.revise id fun request => { request with committed := true },
            .returned (.committed true))) ∨
      ((commitPlan id settled).evaluate respond s).1 = s ∧
        (((commitPlan id settled).evaluate respond s).2 = .returned (.committed false) ∨
          ∃ e, ((commitPlan id settled).evaluate respond s).2 = .failed e) := by
  cases found : s.request? id with
  | none =>
    simp only [commitPlan, Plan.evaluate, found]
    exact .inr ⟨rfl, .inl rfl⟩
  | some request =>
    cases once : request.committed with
    | true =>
      simp only [commitPlan, Plan.evaluate, found, once, if_true]
      exact .inr ⟨rfl, .inl rfl⟩
    | false =>
      rw [evaluate_commitPlan_of_found respond s id settled found once]
      cases advanced : s.advance (request.consumed settled) with
      | ok t => exact .inl ⟨request, t, rfl, once, advanced, rfl⟩
      | error e => exact .inr ⟨rfl, .inr ⟨e, rfl⟩⟩

end SignedOrders.Session
