import SignedOrders.Proofs.Session.Operations

/-!
# Histories of a session, and the reuse of nonces

A session whose pools are given at the start builds requests and commits them, one after
another.  A commit removes the nonces that it consumes from their pools, and a pool that
it drains goes on from the successor of the highest of them (`mem_poolOf_succ`).

Draining looks at the nonces of its own commit only.  It may therefore bring back a nonce
that an earlier commit has consumed: with the pool `1, 2`, a limit order takes `2`, the
next one takes `1`, drains the pool and leaves the successor of `1` (`exists_reuse`).
This is the only way in which a nonce comes back (`neverReused_iff`).
-/

namespace SignedOrders.Session

open Tasks

/-- What a session does in one turn. -/
inductive Turn where
  | limits (time : Int) (requests : List LimitRequest)
  | market (time : Int) (request : MarketRequest)
  | commit (id : Nat) (settled : Option (List Combination))

/-- The operation of a turn. -/
def Turn.operation : Turn → Operation
  | limits time requests => .limitOrders time requests
  | market time request => .marketOrder time request
  | commit id settled => .commit id settled

/-- A session that does one turn after another.  The number of a turn is the number of its
task, and the signers may give any answers. -/
structure History where
  service : Service
  start : Session
  turns : Nat → Turn
  respond : Nat → (question : signing.Question) → signing.Answer question

namespace History

variable (h : History)

/-- A turn as it goes for a session. -/
def play (k : Nat) (s : Session) : Session × Outcome Failure Reply :=
  ((h.turns k).operation.plan h.service k).evaluate (h.respond k) s

/-- The session before a turn. -/
def state : Nat → Session
  | 0 => h.start
  | k + 1 => (h.play k (state k)).1

/-- What a turn gives. -/
def outcome (k : Nat) : Outcome Failure Reply := (h.play k (h.state k)).2

/-- The nonces that a turn has consumed, by asset. -/
def consumed (k : Nat) : List (String × List Int) :=
  match h.turns k, h.outcome k with
  | .commit id settled, .returned (.committed true) =>
    (((h.state k).request? id).map fun request => request.consumed settled).getD []
  | _, _ => []

/-- A commit that has returned `true` in the given turn has consumed a nonce of an asset. -/
def Consumes (k : Nat) (asset : Asset) (n : Int) : Prop :=
  ∃ values, (asset.ticker, values) ∈ h.consumed k ∧ n ∈ values

/-- A commit has consumed all that was in the pool of an asset, and `highest` is the
highest nonce of the asset that it has consumed. -/
def Drains (k : Nat) (asset : Asset) (highest : Int) : Prop :=
  ∃ values, (asset.ticker, values) ∈ h.consumed k ∧ values.max? = some highest ∧
    ∀ n ∈ (h.state k).poolOf asset.ticker, n ∈ values

/-- A nonce that has been consumed is in no later pool, and no request that is built later
is signed with it. -/
def NeverReused : Prop :=
  ∀ i j asset n, i < j → h.Consumes i asset n →
    n ∉ (h.state j).poolOf asset.ticker ∧
      ∀ request, h.outcome j = .returned (.built request) →
        (asset, n) ∉ SignedRequest.nonces request.sides

variable {h} {i j k : Nat} {asset : Asset} {n highest : Int}

/-! ## One turn -/

/-- A turn is a build or a commit. -/
theorem play_cases (h : History) (k : Nat) :
    (∃ build, ReadOnly build ∧ Build.SignsPooled build ∧
        ∀ s, h.play k s = (keep k build).evaluate (h.respond k) s) ∨
      ∃ id settled, h.turns k = .commit id settled ∧
        ∀ s, h.play k s = (commitPlan id settled).evaluate (h.respond k) s := by
  unfold play
  cases h.turns k with
  | limits time requests =>
    exact .inl ⟨_, Build.readOnly_limits h.service time requests,
      Build.signsPooled_limits h.service time requests, fun _ => rfl⟩
  | market time request =>
    exact .inl ⟨_, Build.readOnly_market h.service time request,
      Build.signsPooled_market h.service time request, fun _ => rfl⟩
  | commit id settled => exact .inr ⟨id, settled, rfl, fun _ => rfl⟩

theorem consumed_of_commit {id : Nat} {settled : Option (List Combination)}
    {request : SignedRequest} (hturn : h.turns k = .commit id settled)
    (found : (h.state k).request? id = some request)
    (committed : h.outcome k = .returned (.committed true)) :
    h.consumed k = request.consumed settled := by
  unfold consumed
  rw [hturn, committed]
  dsimp only
  rw [found, Option.map_some, Option.getD_some]

theorem consumed_of_ne (refused : h.outcome k ≠ .returned (.committed true)) :
    h.consumed k = [] := by
  unfold consumed
  split
  · contradiction
  · rfl

/-- A turn advances the pools by what it has consumed, or it leaves them. -/
theorem turn_cases (h : History) (k : Nat) :
    (∃ request settled t, h.consumed k = SignedRequest.consumed request settled ∧
        (h.state k).advance (h.consumed k) = .ok t ∧
        ∀ asset, (h.state (k + 1)).poolOf asset = t.poolOf asset) ∨
      h.consumed k = [] ∧ ∀ asset, (h.state (k + 1)).poolOf asset = (h.state k).poolOf asset := by
  rcases h.play_cases k with ⟨build, reads, -, hplay⟩ | ⟨id, settled, hturn, hplay⟩
  · right
    rcases evaluate_keep (h.respond k) (h.state k) k reads with
      ⟨_, request, -, kept⟩ | ⟨same, refused⟩
    · refine ⟨consumed_of_ne ?_, fun asset => ?_⟩
      · rw [outcome, hplay, kept]
        rintro ⟨⟩
      · rw [state, hplay, kept, poolOf_enroll]
    · refine ⟨consumed_of_ne ?_, fun asset => ?_⟩
      · rw [outcome, hplay]
        exact refused _
      · rw [state, hplay, same]
  · rcases evaluate_commitPlan (h.respond k) (h.state k) id settled with
      ⟨request, t, found, -, advanced, committed⟩ | ⟨same, refused⟩
    · left
      have hcommitted : h.outcome k = .returned (.committed true) := by
        rw [outcome, hplay, committed]
      have hconsumed := consumed_of_commit hturn found hcommitted
      refine ⟨request, settled, t, hconsumed, hconsumed ▸ advanced, fun asset => ?_⟩
      rw [state, hplay, committed, poolOf_revise]
    · right
      refine ⟨consumed_of_ne ?_, fun asset => ?_⟩
      · intro committed
        rw [outcome, hplay] at committed
        rcases refused with refused | ⟨e, refused⟩
        · cases refused.symm.trans committed
        · cases refused.symm.trans committed
      · rw [state, hplay, same]

/-- **A turn** gives each asset with consumed nonces what remains of its pool, and changes
no other pool. -/
theorem poolOf_succ (h : History) (k : Nat) (asset : String) :
    (∃ values, (∀ values', (asset, values') ∈ h.consumed k ↔ values' = values) ∧ values ≠ [] ∧
        Pools.remaining ((h.state k).poolOf asset) values =
          .ok ((h.state (k + 1)).poolOf asset)) ∨
      (∀ values, (asset, values) ∉ h.consumed k) ∧
        (h.state (k + 1)).poolOf asset = (h.state k).poolOf asset := by
  rcases h.turn_cases k with ⟨request, settled, t, hconsumed, advanced, after⟩ | ⟨hconsumed, same⟩
  · -- the asset is named at most once, so that one list tells what it has consumed
    rw [hconsumed] at advanced
    have distinct := SignedRequest.consumed_distinct request settled
    have full := SignedRequest.consumed_full request settled
    obtain ⟨changed, same, -⟩ := poolOf_advance advanced distinct full
    rw [hconsumed, after]
    by_cases hasset : asset ∈ (request.consumed settled).map Prod.fst
    · obtain ⟨⟨_, values⟩, hmem, rfl⟩ := List.mem_map.1 hasset
      refine .inl ⟨values, fun values' => ⟨fun hmem' => ?_, fun heq => heq ▸ hmem⟩,
        full _ hmem, changed _ _ hmem⟩
      exact congrArg Prod.snd (List.inj_on_of_nodup_map distinct hmem' hmem rfl)
    · refine .inr ⟨fun values hmem => hasset (List.mem_map.2 ⟨_, hmem, rfl⟩), same _ hasset⟩
  · rw [hconsumed]
    exact .inr ⟨fun _ => List.not_mem_nil, same asset⟩

/-- **The nonces of a pool after a turn** are those that the turn has not consumed, and the
successor of the highest consumed one if it has drained the pool. -/
theorem mem_poolOf_succ (h : History) (k : Nat) (asset : Asset) (n : Int) :
    n ∈ (h.state (k + 1)).poolOf asset.ticker ↔
      n ∈ (h.state k).poolOf asset.ticker ∧ ¬ h.Consumes k asset n ∨
        ∃ highest, h.Drains k asset highest ∧ n = highest + 1 := by
  unfold Consumes Drains
  rcases h.poolOf_succ k asset.ticker with ⟨values, only, full, left⟩ | ⟨none, same⟩
  · simp only [only, exists_eq_left]
    rw [Pools.mem_of_remaining full left]
    constructor
    · rintro (kept | ⟨drained, highest, hhighest, heq⟩)
      · exact .inl kept
      · exact .inr ⟨highest, ⟨hhighest, drained⟩, heq⟩
    · rintro (kept | ⟨highest, ⟨hhighest, drained⟩, heq⟩)
      · exact .inl kept
      · exact .inr ⟨drained, highest, hhighest, heq⟩
  · simp [none, same]

/-- The nonces of a request are in the pools before the turn that builds it. -/
theorem mem_poolOf_of_built {request : SignedRequest}
    (built : h.outcome k = .returned (.built request))
    (hn : (asset, n) ∈ SignedRequest.nonces request.sides) :
    n ∈ (h.state k).poolOf asset.ticker := by
  rcases h.play_cases k with ⟨build, reads, pooled, hplay⟩ | ⟨id, settled, -, hplay⟩
  · rw [outcome, hplay] at built
    rcases evaluate_keep (h.respond k) (h.state k) k reads with
      ⟨asked, given, course, kept⟩ | ⟨-, refused⟩
    · rw [kept] at built
      cases built
      obtain ⟨s, rfl, hmem⟩ := pooled _ _ _ _ _ course hn
      exact hmem
    · exact absurd built (refused _)
  · rw [outcome, hplay] at built
    rcases evaluate_commitPlan (h.respond k) (h.state k) id settled with
      ⟨_, _, -, -, -, committed⟩ | ⟨-, refused | ⟨_, refused⟩⟩
    · rw [committed] at built
      cases built
    · cases refused.symm.trans built
    · cases refused.symm.trans built

/-- A nonce that a turn consumes is not in the pool after it. -/
theorem not_mem_poolOf_of_consumes (consumed : h.Consumes k asset n) :
    n ∉ (h.state (k + 1)).poolOf asset.ticker := by
  obtain ⟨_, hvalues, hn⟩ := consumed
  rcases h.poolOf_succ k asset.ticker with ⟨values, only, full, left⟩ | ⟨none, -⟩
  · obtain rfl := (only _).1 hvalues
    rw [Pools.mem_of_remaining full left]
    rintro (⟨-, free⟩ | ⟨-, highest, hhighest, rfl⟩)
    · exact free hn
    · have bound := (List.max?_eq_some_iff.1 hhighest).2 _ hn
      omega
  · exact absurd hvalues (none _)

/-! ## All turns -/

/-- While no drained pool goes on from it, a consumed nonce stays out of the pool. -/
theorem not_mem_poolOf_later (hij : i < j) (consumed : h.Consumes i asset n)
    (safe : ∀ k highest, i < k → h.Drains k asset highest → n ≠ highest + 1) :
    n ∉ (h.state j).poolOf asset.ticker := by
  -- a pool without the nonce gets it only as the successor with which it goes on
  induction hij with
  | refl => exact not_mem_poolOf_of_consumes consumed
  | @step k hik ih =>
    rw [mem_poolOf_succ]
    rintro (⟨held, -⟩ | ⟨highest, drains, rfl⟩)
    · exact ih held
    · exact safe k highest hik drains rfl

/-- **A consumed nonce is reused exactly when a drained pool goes on from one.** -/
theorem neverReused_iff (h : History) :
    h.NeverReused ↔ ∀ i j asset highest, i < j → h.Drains j asset highest →
      ¬ h.Consumes i asset (highest + 1) := by
  constructor
  · intro never i j asset highest hij drains consumed
    have out := (never i (j + 1) asset (highest + 1) (by omega) consumed).1
    exact out ((mem_poolOf_succ ..).2 (.inr ⟨highest, drains, rfl⟩))
  · intro safe i j asset n hij consumed
    have out : n ∉ (h.state j).poolOf asset.ticker := by
      refine not_mem_poolOf_later hij consumed ?_
      rintro k highest hik drains rfl
      exact safe i k asset highest hik drains consumed
    exact ⟨out, fun request built hn => out (mem_poolOf_of_built built hn)⟩

/-! ## The machine that takes the turns -/

/-- A run that has taken the first turns of a history, one after another. -/
inductive Taken (h : History) : Nat → Run → Prop where
  | initial : Taken h 0 (Machine.initial h.start)
  | turn {k : Nat} {run : Run} (before : Taken h k run) (patience : Nat) :
      Taken h (k + 1)
        ((run.issue h.service (.operate (h.turns k).operation)).settle world patience)

/-- **The machine takes the turns of a history** when signers answer of themselves: each
turn comes to its end, with the outcome and the state of the history. -/
theorem exists_taken (h : History) (answers : ∀ k, h.respond k = world.answer) (k : Nat) :
    ∃ run, h.Taken k run ∧ Machine.Idle run ∧ run.threads.length = k ∧ run.data = h.state k ∧
      ∀ j, k = j + 1 → run.outcome? j = some (h.outcome j) := by
  induction k with
  | zero =>
    refine ⟨_, .initial, ⟨⟨rfl, rfl, rfl, rfl, rfl, rfl, rfl⟩, fun id t found => ?_⟩, rfl, rfl, ?_⟩
    · cases found
    · rintro j ⟨⟩
  | succ k ih =>
    obtain ⟨run, taken, idle, length, hdata, -⟩ := ih
    have rests := Machine.rests_start world ((h.turns k).operation.plan h.service k) idle
      ((h.turns k).operation.unhindered_plan h.service k (by cases h.turns k <;> nofun))
    rw [length, hdata, ← answers k] at rests
    obtain ⟨moves, last, idle', length', hdata', houtcome, settled⟩ := rests
    refine ⟨last, ?_, idle', length', hdata', ?_⟩
    · have next := taken.turn (moves + 0)
      rwa [Run.issue, length, settled 0] at next
    · rintro j ⟨⟩
      exact houtcome

end History

/-! ## A nonce that comes back -/

namespace Sample

/-- Two limit orders, each committed when it is built, and then a third one. -/
def history : History where
  service := service
  start := session
  turns
    | 1 => .commit 0 none
    | 3 => .commit 2 none
    | _ => .limits 1000 [limitRequest]
  respond _ := world.answer

end Sample

/-- With the pool `1, 2`, the second limit order drains the pool, which goes on from the
nonce that the first one has consumed. -/
theorem exists_reuse :
    ∃ h : History, Session.new [⟨⟨.neo, 8⟩, ⟨.gas, 8⟩, false⟩] (some Sample.signer)
        (some [("neo", [1, 2]), ("gas", [7])]) = .ok h.start ∧ ¬ h.NeverReused := by
  refine ⟨Sample.history, rfl, fun never => ?_⟩
  -- turn 1 commits the order that is signed with `2`, turn 3 the one that is signed with `1`
  have consumed : Sample.history.Consumes 1 .neo 2 := ⟨[2], by decide +kernel, by decide⟩
  exact (never 1 4 .neo 2 (by decide) consumed).1 (by decide +kernel)

end SignedOrders.Session
