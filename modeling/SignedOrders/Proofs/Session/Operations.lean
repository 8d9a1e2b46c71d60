import SignedOrders.Proofs.Session.Commit
import SignedOrders.Proofs.Tasks.Asking

/-!
# What operations wait for

Only builds ask, and they have neither the lock nor the turnstile when they do; only one
operation holds the lock until it is told to let go (`Operation.confined_plan`).  Any other
operation waits for nobody when it is alone (`Operation.unhindered_plan`), and gives a reply or
fails if it is no build (`Operation.evaluate_ne_cancelled`).
-/

namespace SignedOrders.Session

open Tasks

variable {service : Service} {operation : Operation}

/-- The build that an operation is, if it is one. -/
def Operation.build? (service : Service) : Operation → Option (Action SignedRequest)
  | limitOrders time requests => some (Build.limits service time requests)
  | marketOrder time request => some (Build.market service time request)
  | _ => none

theorem confined_commitPlan {asks holds : Prop} (id : Nat) (settled : Option (List Combination)) :
    (commitPlan id settled).Confined asks holds false := by
  refine ⟨rfl, fun s => ?_⟩
  dsimp only
  split
  · trivial
  · split
    · trivial
    · trivial

/-- **Only builds ask**, and they do so without the lock and outside the turnstile. -/
theorem Operation.confined_plan (service : Service) (id : Nat) (operation : Operation) :
    (operation.plan service id).Confined (∃ build, operation.build? service = some build)
      (operation = .hold) false := by
  cases operation with
  | limitOrders time requests =>
    exact (Build.readOnly_limits service time requests).confined_bind ⟨_, rfl⟩ fun _ => trivial
  | marketOrder time given =>
    exact (Build.readOnly_market service time given).confined_bind ⟨_, rfl⟩ fun _ => trivial
  | replacePools nonces =>
    rw [Operation.plan]
    cases Pools.install nonces <;> trivial
  | commit of settled => exact confined_commitPlan of settled
  | hold =>
    refine ⟨rfl, fun told => ?_⟩
    cases told <;> trivial
  | setMarkets => trivial
  | setSigner => trivial
  | advance => trivial
  | idle => trivial
  | _ => exact fun _ => trivial

/-- An operation that is alone waits for nobody, unless it holds the lock until told. -/
theorem Operation.unhindered_plan (service : Service) (id : Nat) (operation : Operation)
    (free : operation ≠ .hold) : Unhindered false (operation.plan service id) :=
  ((operation.confined_plan service id).mono (fun build => build) free).unhindered

/-- An operation that is no build asks nothing. -/
theorem Operation.silent_plan (id : Nat) (unbuilt : operation.build? service = none)
    (free : operation ≠ .hold) : (operation.plan service id).Confined False False false := by
  refine (operation.confined_plan service id).mono ?_ free
  rintro ⟨build, built⟩
  cases unbuilt.symm.trans built

/-- An operation that is no build gives a reply or fails. -/
theorem Operation.evaluate_ne_cancelled (id : Nat) (unbuilt : operation.build? service = none)
    (free : operation ≠ .hold) (respond : (question : signing.Question) → signing.Answer question)
    (s : Session) : ((operation.plan service id).evaluate respond s).2 ≠ .cancelled := by
  have looked {look : Session → Except Failure Reply} :
      ((Plan.read look : Action Reply).evaluate respond s).2 ≠ .cancelled := by
    show Outcome.ofExcept (look s) ≠ .cancelled
    cases look s <;> rintro ⟨⟩
  cases operation with
  | limitOrders => cases unbuilt
  | marketOrder => cases unbuilt
  | hold => exact absurd rfl free
  | replacePools nonces =>
    rw [Operation.plan]
    cases Pools.install nonces <;> rintro ⟨⟩
  | advance consumed =>
    rw [Operation.plan, Plan.evaluate]
    cases s.advance consumed <;> rintro ⟨⟩
  | commit of settled =>
    rw [Operation.plan]
    rcases evaluate_commitPlan respond s of settled with
      ⟨_, _, -, -, -, evaluates⟩ | ⟨-, returned | ⟨e, failed⟩⟩
    · rw [evaluates]
      rintro ⟨⟩
    · rw [returned]
      rintro ⟨⟩
    · rw [failed]
      rintro ⟨⟩
  | setMarkets => rintro ⟨⟩
  | setSigner => rintro ⟨⟩
  | idle => rintro ⟨⟩
  | _ => exact looked

end SignedOrders.Session
