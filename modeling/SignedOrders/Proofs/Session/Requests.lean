import SignedOrders.Proofs.Session.Consumed
import SignedOrders.Proofs.Session.Schedule

/-!
# The signed requests of a session

A build adds the request that it gives, under the number of its task.  Only commits change a
request that is there, and all that they change is that it counts as **committed**.
-/

namespace SignedOrders.Session

open Tasks Relation

/-- The session `t` has the markets, the signer and the nonces of `s`. -/
structure Agrees (s t : Session) : Prop where
  catalog : t.catalog = s.catalog
  signer : t.signer = s.signer
  pools : t.pools = s.pools

theorem Agrees.refl (s : Session) : Agrees s s := ⟨rfl, rfl, rfl⟩

theorem Agrees.symm {s t : Session} (h : Agrees s t) : Agrees t s :=
  ⟨h.catalog.symm, h.signer.symm, h.pools.symm⟩

theorem Agrees.trans {s t u : Session} (h : Agrees s t) (h' : Agrees t u) : Agrees s u :=
  ⟨h'.catalog.trans h.catalog, h'.signer.trans h.signer, h'.pools.trans h.pools⟩

theorem agrees_of_eq {s t : Session} (h : t = s) : Agrees s t := by
  subst h
  exact ⟨rfl, rfl, rfl⟩

/-- The signed request of a task has been committed. -/
def Committed (s : Session) (id : Nat) : Prop :=
  ∃ request, s.request? id = some request ∧ request.committed = true

/-- The session in which the signed request of a task counts as committed. -/
def markCommitted (id : Nat) (s : Session) : Session :=
  s.revise id fun request => { request with committed := true }

theorem request?_enroll (s : Session) (id : Nat) (request : SignedRequest) (other : Nat) :
    (s.enroll id request).request? other =
      (s.request? other).or (if other = id then some request else none) := by
  unfold enroll request?
  rw [List.lookup_append]
  by_cases hid : other = id
  · simp [hid]
  · have miss : (other == id) = false := beq_false_of_ne hid
    simp [List.lookup_cons, miss, hid]

theorem request?_revise (s : Session) (id : Nat) (f : SignedRequest → SignedRequest) (other : Nat) :
    (s.revise id f).request? other =
      if other = id then (s.request? other).map f else s.request? other := by
  unfold revise request?
  dsimp only
  induction s.requests with
  | nil => simp
  | cons entry entries ih =>
    obtain ⟨name, request⟩ := entry
    rw [List.map_cons, List.lookup_cons, List.lookup_cons]
    by_cases hit : other = name
    · subst hit
      by_cases same : other = id
      · simp [same]
      · simp [same]
    · have miss : (other == name) = false := beq_false_of_ne hit
      by_cases same : name = id
      · subst same
        simpa [miss, hit] using ih
      · simpa [miss, same] using ih

theorem request?_advance {s t : Session} {consumed : List (String × List Int)}
    (h : s.advance consumed = .ok t) (id : Nat) : t.request? id = s.request? id := by
  rw [eq_of_advance h]
  rfl

theorem committed_markCommitted {s : Session} {id other : Nat} {request : SignedRequest}
    (found : s.request? id = some request) :
    (markCommitted id s).Committed other ↔ other = id ∨ s.Committed other := by
  unfold Committed markCommitted
  rw [request?_revise]
  by_cases hid : other = id
  · subst hid
    simp [found]
  · simp [hid]

/-- Signed requests are kept as they are, and none is committed. -/
def Carries (s t : Session) : Prop :=
  ∀ id, (∀ request, s.request? id = some request → t.request? id = some request) ∧
    (t.Committed id → s.Committed id)

theorem Carries.of_eq {s t : Session} (same : t.requests = s.requests) : Carries s t := by
  have same (id : Nat) : t.request? id = s.request? id := by
    unfold request?
    rw [same]
  intro id
  unfold Committed
  rw [same]
  exact ⟨fun _ found => found, fun committed => committed⟩

theorem carries_enroll (s : Session) (id : Nat) {request : SignedRequest}
    (fresh : request.committed = false) : Carries s (s.enroll id request) := by
  intro other
  unfold Committed
  rw [request?_enroll]
  refine ⟨fun _ found => by rw [found]; rfl, ?_⟩
  rintro ⟨given, found, committed⟩
  cases before : s.request? other with
  | some old =>
    rw [before, Option.some_or, Option.some.injEq] at found
    exact ⟨given, by rw [found], committed⟩
  | none =>
    rw [before, Option.none_or] at found
    split at found
    · cases found
      cases fresh.symm.trans committed
    · cases found

/-- Only commits change signed requests. -/
theorem Change.carries {service : Service} {id : Nat} {operation : Operation} {s t : Session}
    (change : Change service id operation s t)
    (other : ∀ of settled, operation ≠ .commit of settled) : Carries s t := by
  cases change with
  | catalog => exact .of_eq rfl
  | signer => exact .of_eq rfl
  | pools => exact .of_eq rfl
  | advance advanced =>
    rw [eq_of_advance advanced]
    exact .of_eq rfl
  | limits course =>
    obtain ⟨_, _, _, -, -, -, -, -, -, fresh⟩ := Build.course_limits course
    exact carries_enroll s id fresh
  | market course =>
    obtain ⟨_, _, _, -, -, -, -, fresh, -⟩ := Build.course_market course
    exact carries_enroll s id fresh
  | consume => exact absurd rfl (other _ _)
  | mark => exact absurd rfl (other _ _)

theorem carries_of_changes {service : Service} {id : Nat} {operation : Operation} {s t : Session}
    (changes : ReflTransGen (Change service id operation) s t)
    (other : ∀ of settled, operation ≠ .commit of settled) : Carries s t := by
  induction changes with
  | refl => exact .of_eq rfl
  | tail _ last ih =>
    have later := last.carries other
    exact fun id => ⟨fun request found => (later id).1 request ((ih id).1 request found),
      fun committed => (ih id).2 ((later id).2 committed)⟩

/-- A signed request stays, for the same combinations. -/
theorem Change.exists_request {service : Service} {id other : Nat} {operation : Operation}
    {s t : Session} {request : SignedRequest} (change : Change service id operation s t)
    (found : s.request? other = some request) :
    ∃ request', t.request? other = some request' ∧ request'.sides = request.sides := by
  cases change with
  | limits => exact ⟨request, by rw [request?_enroll, found, Option.some_or], rfl⟩
  | market => exact ⟨request, by rw [request?_enroll, found, Option.some_or], rfl⟩
  | advance advanced => exact ⟨request, (request?_advance advanced other).trans found, rfl⟩
  | consume _ advanced => exact ⟨request, (request?_advance advanced other).trans found, rfl⟩
  | mark =>
    rw [request?_revise, found]
    split
    · exact ⟨_, rfl, rfl⟩
    · exact ⟨request, rfl, rfl⟩
  | _ => exact ⟨request, found, rfl⟩

theorem exists_request_of_changes {service : Service} {id other : Nat} {operation : Operation}
    {s t : Session} {request : SignedRequest}
    (changes : ReflTransGen (Change service id operation) s t)
    (found : s.request? other = some request) :
    ∃ request', t.request? other = some request' ∧ request'.sides = request.sides := by
  induction changes with
  | refl => exact ⟨request, found, rfl⟩
  | tail _ last ih =>
    obtain ⟨middle, found', sides⟩ := ih
    obtain ⟨request', found'', sides'⟩ := last.exists_request found'
    exact ⟨request', found'', sides'.trans sides⟩

/-- There is no request before anything has happened. -/
theorem Schedule.request?_start (h : Schedule) (id : Nat) : h.start.request? id = none := by
  obtain ⟨markets, signer, nonces, made⟩ := h.made
  obtain ⟨pools, -, start⟩ := new_eq_ok.1 made
  rw [start]
  rfl

/-- The combinations of a signed request never change. -/
theorem Schedule.exists_request_later {h : Schedule} {i k id : Nat} {request : SignedRequest}
    (later : i ≤ k) (found : (h.data i).request? id = some request) :
    ∃ request', (h.data k).request? id = some request' ∧ request'.sides = request.sides := by
  induction later with
  | refl => exact ⟨request, found, rfl⟩
  | @step k _ ih =>
    obtain ⟨request', found', sides⟩ := ih
    rcases h.data_succ k with same | ⟨mover, operation, -, -, changes⟩
    · rw [same]
      exact ⟨request', found', sides⟩
    · obtain ⟨last, found'', sides'⟩ := exists_request_of_changes changes found'
      exact ⟨last, found'', sides'.trans sides⟩

end SignedOrders.Session
