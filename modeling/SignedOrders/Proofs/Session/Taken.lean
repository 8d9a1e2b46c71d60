import SignedOrders.Proofs.Session.Operations
import SignedOrders.Proofs.Session.PoolInvariant
import SignedOrders.Proofs.Session.Requests

/-!
# What a signed request was built from

A build looks at the session while it runs.  However it is interleaved with other tasks, the
request that is kept under its number was given by a course of the build that has seen the
session only as it was at events in which the build ran (`Schedule.built`).

So every nonce of the request was in the pool of its asset at such an event
(`Schedule.taken`).  It is a nonce that a pool can hold (`Schedule.nonces_range`), and its asset
has a pool that is not empty, unless the pools have been replaced since (`Schedule.full_of_full`).
-/

namespace SignedOrders.Session

open Tasks Relation

/-! ## Builds -/

/-- The requests are the same, but for whether they have been committed. -/
def Matches (before request : SignedRequest) : Prop :=
  request = { before with committed := request.committed }

theorem Matches.refl (request : SignedRequest) : Matches request request := rfl

theorem Matches.trans {first second third : SignedRequest} (h : Matches first second)
    (later : Matches second third) : Matches first third := by
  unfold Matches at *
  rw [later, h]

theorem Matches.sides {before request : SignedRequest} (h : Matches before request) :
    request.sides = before.sides := by
  rw [h]
  rfl

theorem Operation.of_build? {service : Service} {operation : Operation}
    {build : Action SignedRequest} (h : operation.build? service = some build) :
    (∀ id, operation.plan service id = keep id build) ∧ ReadOnly build ∧
      Build.SignsPooled build := by
  cases operation with
  | limitOrders time requests =>
    cases h
    exact ⟨fun _ => rfl, Build.readOnly_limits service time requests,
      Build.signsPooled_limits service time requests⟩
  | marketOrder time request =>
    cases h
    exact ⟨fun _ => rfl, Build.readOnly_market service time request,
      Build.signsPooled_market service time request⟩
  | _ => cases h

/-- A request that is there after a change was there before, committed or not, unless the
change is the end of its build. -/
theorem Change.request? {service : Service} {id other : Nat} {operation : Operation}
    {s t : Session} {request : SignedRequest} (change : Change service id operation s t)
    (found : t.request? other = some request) :
    (∃ before, s.request? other = some before ∧ Matches before request) ∨
      other = id ∧ ∃ build, operation.build? service = some build := by
  have enrolled {given : SignedRequest}
      (found : (s.enroll id given).request? other = some request) :
      (∃ before, s.request? other = some before ∧ Matches before request) ∨ other = id := by
    rw [request?_enroll] at found
    cases before : s.request? other with
    | some old =>
      rw [before, Option.some_or, Option.some.injEq] at found
      exact .inl ⟨old, rfl, found ▸ .refl old⟩
    | none =>
      by_cases hid : other = id
      · exact .inr hid
      · rw [before, if_neg hid] at found
        cases found
  cases change with
  | limits => exact (enrolled found).imp_right fun hid => ⟨hid, _, rfl⟩
  | market => exact (enrolled found).imp_right fun hid => ⟨hid, _, rfl⟩
  | advance advanced =>
    rw [request?_advance advanced] at found
    exact .inl ⟨request, found, .refl request⟩
  | consume _ advanced =>
    rw [request?_advance advanced] at found
    exact .inl ⟨request, found, .refl request⟩
  | mark =>
    rw [request?_revise] at found
    split at found
    · obtain ⟨before, hbefore, rfl⟩ := Option.map_eq_some_iff.1 found
      exact .inl ⟨before, hbefore, rfl⟩
    · exact .inl ⟨request, found, .refl request⟩
  | _ => exact .inl ⟨request, found, .refl request⟩

theorem request?_of_changes {service : Service} {id other : Nat} {operation : Operation}
    {s t : Session} {request : SignedRequest}
    (changes : ReflTransGen (Change service id operation) s t)
    (found : t.request? other = some request) :
    (∃ before, s.request? other = some before ∧ Matches before request) ∨
      other = id ∧ ∃ build, operation.build? service = some build := by
  induction changes generalizing request with
  | refl => exact .inl ⟨request, found, .refl request⟩
  | tail _ last ih =>
    rcases last.request? found with ⟨middle, hmiddle, same⟩ | built
    · rcases ih hmiddle with ⟨before, hbefore, same'⟩ | built
      · exact .inl ⟨before, hbefore, same'.trans same⟩
      · exact .inr built
    · exact .inr built

/-! ## What a build has seen -/

/-- What is left of a build goes on from what the build has seen: however the rest may go, the
whole build can have gone. -/
def Continues (seen : Session → Prop) (build rest : Action SignedRequest) : Prop :=
  ∀ (later : Session → Prop) asked request, Course later rest asked (.returned request) →
    ∃ before, Course (fun s => seen s ∨ later s) build before (.returned request)

/-- The build can give the request, committed or not, after what it has seen. -/
def Built (seen : Session → Prop) (build : Action SignedRequest) (request : SignedRequest) :
    Prop :=
  ∃ asked made, Course seen build asked (.returned made) ∧ Matches made request

/-- What the task of a build still has to do. -/
inductive Rest (seen : Session → Prop) (build : Action SignedRequest) (id : Nat) :
    Action Reply → Prop where
  | ended (outcome) : Rest seen build id (.finish outcome)
  | built (request) (made : Built seen build request) :
      Rest seen build id (.mark (fun s => s.enroll id request) (.done (.built request)))
  | peek (look) (reads : ∀ s, ReadOnly (look s)) (continues : Continues seen build (.peek look)) :
      Rest seen build id (.peek fun s => keep id (look s))
  | shared (look) (reads : ∀ s, ReadOnly (look s))
      (continues : Continues seen build (.shared look)) :
      Rest seen build id (.shared fun s => keep id (look s))
  | ask (under question next) (reads : ∀ answer, ReadOnly (next answer))
      (continues : Continues seen build (.ask under question next)) :
      Rest seen build id (.ask under question fun answer => keep id (next answer))

/-- The request of a build is one that it can give, and until it is there the build goes on. -/
structure Pledged (seen : Session → Prop) (build : Action SignedRequest) (id : Nat) (s : Session)
    (p : Action Reply) : Prop where
  built : ∀ request, s.request? id = some request → Built seen build request
  rest : Rest seen build id p

section

variable {seen seen' : Session → Prop} {id : Nat} {s start : Session}
  {build whole look : Action SignedRequest} {request : SignedRequest} {p : Action Reply}

theorem Continues.refl (seen : Session → Prop) (build : Action SignedRequest) :
    Continues seen build build :=
  fun _ asked _ course => ⟨asked, course.mono fun _ => .inr⟩

theorem Continues.mono (h : Continues seen build look) (more : ∀ s, seen s → seen' s) :
    Continues seen' build look := by
  intro later asked request course
  obtain ⟨before, course⟩ := h later asked request course
  exact ⟨before, course.mono fun s => .imp_left (more s)⟩

/-- A look at the session is one more that the build has seen. -/
theorem Continues.of_look (shown : seen s) (h : Continues seen build whole)
    (looks : ∀ (later : Session → Prop) asked outcome, later s → Course later look asked outcome →
      Course later whole asked outcome) : Continues seen build look := by
  intro later asked request course
  have course := looks (fun u => later u ∨ u = s) _ _ (.inr rfl) (course.mono fun _ => .inl)
  obtain ⟨before, course⟩ := h _ _ _ course
  refine ⟨before, course.mono ?_⟩
  rintro u (hu | hu | rfl)
  · exact .inl hu
  · exact .inr hu
  · exact .inl shown

theorem Continues.built (h : Continues seen build (.finish (.returned request))) :
    Built seen build request := by
  obtain ⟨before, course⟩ := h (fun _ => False) [] request (.finish _)
  refine ⟨before, request, course.mono fun u hu => ?_, .refl request⟩
  exact hu.resolve_right not_false

theorem Built.mono (h : Built seen build request) (more : ∀ s, seen s → seen' s) :
    Built seen' build request := by
  obtain ⟨asked, made, course, same⟩ := h
  exact ⟨asked, made, course.mono more, same⟩

theorem Rest.of_keep (reads : ReadOnly whole) (continues : Continues seen build whole) :
    Rest seen build id (keep id whole) := by
  cases whole with
  | finish outcome =>
    cases outcome with
    | returned request => exact .built request continues.built
    | failed e => exact .ended _
    | cancelled => exact .ended _
  | peek look => exact .peek look reads continues
  | shared look => exact .shared look reads continues
  | ask under question next => exact .ask under question next reads.2 continues
  | _ => exact reads.elim

theorem Rest.mono (h : Rest seen build id p) (more : ∀ s, seen s → seen' s) :
    Rest seen' build id p := by
  cases h with
  | ended outcome => exact .ended outcome
  | built request made => exact .built request (made.mono more)
  | peek look reads continues => exact .peek look reads (continues.mono more)
  | shared look reads continues => exact .shared look reads (continues.mono more)
  | ask under question next reads continues =>
    exact .ask under question next reads (continues.mono more)

theorem Pledged.mono (h : Pledged seen build id s p) (more : ∀ s, seen s → seen' s) :
    Pledged seen' build id s p :=
  ⟨fun request found => (h.built request found).mono more, h.rest.mono more⟩

/-- **A build goes on from what it has seen** with each step that it takes while the markets,
the signer and the pools stay. -/
theorem kept_pledged (build : Action SignedRequest) (id : Nat)
    (shown : ∀ s, Agrees start s → seen s) :
    Kept fun s p => Agrees start s ∧ Pledged seen build id s p where
  peek := by
    rintro s look ⟨same, built, rest⟩
    cases rest with
    | peek look reads continues =>
      refine ⟨same, built, .of_keep (reads s) (continues.of_look (shown s same) ?_)⟩
      exact fun _ _ _ hs course => .peek s hs course
  mark := by
    rintro s change next ⟨same, built, rest⟩
    cases rest with
    | built request made =>
      refine ⟨same.trans ⟨rfl, rfl, rfl⟩, fun given found => ?_, .ended _⟩
      rw [request?_enroll, if_pos rfl] at found
      cases before : s.request? id with
      | some old =>
        rw [before, Option.some_or, Option.some.injEq] at found
        exact built given (found ▸ before)
      | none =>
        rw [before, Option.none_or, Option.some.injEq] at found
        exact found ▸ made
  shared := by
    rintro s look ⟨same, built, rest⟩
    cases rest with
    | shared look reads continues =>
      refine ⟨same, built, .of_keep (reads s) (continues.of_look (shown s same) ?_)⟩
      exact fun _ _ _ hs course => .shared s hs course
  ask := by
    rintro s under question next answer ⟨same, built, rest⟩
    cases rest with
    | ask under question next reads continues =>
      refine ⟨same, built, .of_keep (reads answer) fun later asked request course => ?_⟩
      exact continues later _ request (.ask answer course)
  cancelled h := ⟨h.1, h.2.built, .ended _⟩
  relinquish h := nomatch h.2.rest
  exclusive h := nomatch h.2.rest
  refused h := nomatch h.2.rest
  hold h := nomatch h.2.rest
  serial h := nomatch h.2.rest

end

namespace Schedule

variable {h : Schedule} {j k id : Nat} {request : SignedRequest}

/-- A request that is there after an event was there before, committed or not, unless the
event is a move of its build. -/
theorem request?_succ (found : (h.data (k + 1)).request? id = some request) :
    (∃ before, (h.data k).request? id = some before ∧ Matches before request) ∨
      (h.move k).task? = some id ∧ id < (h.state k).threads.length ∧
        ∃ operation build, h.Performs id operation ∧ operation.build? h.service = some build := by
  rcases h.data_succ k with same | ⟨mover, operation, moves, performs, changes⟩
  · rw [same] at found
    exact .inl ⟨request, found, .refl request⟩
  · rcases request?_of_changes changes found with before | ⟨rfl, build, builds⟩
    · exact .inl before
    · by_cases present : id < (h.state k).threads.length
      · exact .inr ⟨moves, present, operation, build, performs, builds⟩
      · obtain ⟨wrote, goes⟩ := h.exists_step k
        have same : h.data (k + 1) = h.data k := (goes.idle moves (by omega)).1
        rw [same] at found
        exact .inl ⟨request, found, .refl request⟩

/-- A request that is there has been built by its task. -/
theorem exists_build (found : (h.data k).request? id = some request) :
    id < (h.state k).threads.length ∧
      ∃ operation build, h.Performs id operation ∧ operation.build? h.service = some build := by
  induction k generalizing request with
  | zero => cases (h.request?_start id).symm.trans found
  | succ k ih =>
    have mono : (h.state k).threads.length ≤ (h.state (k + 1)).threads.length :=
      h.length_mono (by omega)
    rcases request?_succ found with ⟨before, found, -⟩ | ⟨-, present, built⟩
    · obtain ⟨present, built⟩ := ih found
      exact ⟨by omega, built⟩
    · exact ⟨by omega, built⟩

/-- A build has seen a session: it ran in an event that began with these markets, this signer and
these pools. -/
def Looked (h : Schedule) (k id : Nat) (s : Session) : Prop :=
  ∃ j, j < k ∧ (h.move j).task? = some id ∧ Agrees (h.data j) s

theorem Looked.succ {s : Session} (looked : h.Looked k id s) : h.Looked (k + 1) id s := by
  obtain ⟨j, hj, moves, same⟩ := looked
  exact ⟨j, by omega, moves, same⟩

/-- At each event, a build goes on from what it has seen. -/
theorem pledged {operation : Operation} {build : Action SignedRequest}
    (performs : h.Performs id operation) (builds : operation.build? h.service = some build)
    {t : Thread signing Session Failure Reply} (found : (h.state k).scene[id]? = some t) :
    Pledged (h.Looked k id) build id (h.data k) t.plan := by
  induction k generalizing t with
  | zero => cases found
  | succ k ih =>
    obtain ⟨wrote, goes⟩ := h.exists_step k
    rcases goes.before_cases found with ⟨moves, u, before⟩ | ⟨rests, same⟩ | ⟨length, start, -⟩
    · have shown (s : Session) (same : Agrees (h.data k) s) : h.Looked (k + 1) id s :=
        ⟨k, by omega, moves, same⟩
      have start := (ih before).mono fun s looked => looked.succ
      obtain ⟨v, found', -, pledged⟩ :=
        goes.kept (kept_pledged build id shown) moves before ⟨.refl _, start⟩
      rwa [Option.some.inj (found.symm.trans found')]
    · -- another task has moved, which leaves the request
      have before := (ih same).mono fun s looked => looked.succ
      refine ⟨fun request found => ?_, before.rest⟩
      rcases request?_succ found with ⟨old, found, same⟩ | ⟨moves, -⟩
      · obtain ⟨asked, made, course, same'⟩ := before.built old found
        exact ⟨asked, made, course, same'.trans same⟩
      · exact absurd moves rests
    · -- the build is started, and its request is not there yet
      obtain ⟨other, -, plan, performs'⟩ := performs_of_start start
      rw [← length] at plan performs'
      cases performs.unique performs'
      obtain ⟨plan_eq, reads, -⟩ := Operation.of_build? builds
      rw [plan, plan_eq]
      refine ⟨fun request found => ?_, .of_keep reads (.refl _ build)⟩
      rcases request?_succ found with ⟨old, found, -⟩ | ⟨moves, -⟩
      · have present := (exists_build found).1
        omega
      · rw [start] at moves
        cases moves

/-- **A signed request is what its build has given**, by a course that has seen the session only
as it was at events in which the build ran. -/
theorem built (found : (h.data k).request? id = some request) :
    ∃ operation build, h.Performs id operation ∧ operation.build? h.service = some build ∧
      Built (h.Looked k id) build request := by
  obtain ⟨present, operation, build, performs, builds⟩ := exists_build found
  rw [← Machine.length_scene] at present
  refine ⟨operation, build, performs, builds, ?_⟩
  exact (pledged performs builds (List.getElem?_eq_getElem present)).built request found

/-- **Every nonce of a signed request was in the pool of its asset** at some event in which the
build of the request ran. -/
theorem taken (found : (h.data k).request? id = some request) {asset : Asset} {n : Int}
    (hn : (asset, n) ∈ SignedRequest.nonces request.sides) :
    ∃ j, j < k ∧ (h.move j).task? = some id ∧ n ∈ (h.data j).poolOf asset.ticker := by
  obtain ⟨operation, build, -, builds, asked, made, course, same⟩ := built found
  obtain ⟨-, -, pooled⟩ := Operation.of_build? builds
  rw [same.sides] at hn
  obtain ⟨s, ⟨j, hj, moves, agrees⟩, hn⟩ := pooled _ _ _ _ _ course hn
  refine ⟨j, hj, moves, ?_⟩
  unfold poolOf at hn ⊢
  rwa [← agrees.pools]

/-- **Every nonce of a signed request** is one that a pool can hold. -/
theorem nonces_range (found : (h.data k).request? id = some request) {asset : Asset} {n : Int}
    (hn : (asset, n) ∈ SignedRequest.nonces request.sides) : 0 ≤ n ∧ n ≤ 2 ^ 32 - 2 := by
  obtain ⟨j, -, -, hn⟩ := taken found hn
  exact (h.poolsSound j).range hn

/-- A replacement of the pools has changed the session since an event. -/
def Replaced (h : Schedule) (j k : Nat) : Prop :=
  ∃ i task given, j ≤ i ∧ i < k ∧ (h.move i).task? = some task ∧
    h.Performs task (.replacePools given) ∧ h.data (i + 1) ≠ h.data i

/-- **A pool that is not empty is not empty later**, unless the pools have been replaced. -/
theorem full_of_full (hjk : j ≤ k) (stays : ¬ h.Replaced j k) {asset : String}
    (full : (h.data j).poolOf asset ≠ []) : (h.data k).poolOf asset ≠ [] := by
  induction hjk with
  | refl => exact full
  | @step k hjk ih =>
    have before : (h.data k).poolOf asset ≠ [] := by
      refine ih fun replaced => stays ?_
      obtain ⟨i, task, given, hji, hik, replaced⟩ := replaced
      exact ⟨i, task, given, hji, by omega, replaced⟩
    rcases h.data_succ k with same | ⟨task, operation, moves, performs, changes⟩
    · rwa [same]
    · by_cases replaces : ∃ given, operation = .replacePools given
      · obtain ⟨given, rfl⟩ := replaces
        have same : h.data (k + 1) = h.data k := by
          by_contra changed
          exact stays ⟨k, task, given, hjk, by omega, moves, performs, changed⟩
        rwa [same]
      · exact full_of_changes changes (fun given is => replaces ⟨given, is⟩) before

end Schedule

end SignedOrders.Session
