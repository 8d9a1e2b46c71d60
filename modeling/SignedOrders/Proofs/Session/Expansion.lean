import Mathlib.Data.List.ProdSigma
import SignedOrders.Proofs.Session.Taken

/-!
# The combinations of a market order

A market order is signed for every nonce that it spends with every nonce that it receives, the
former outermost.  Since no history of a session puts a nonce twice into a pool, no combination
comes twice; and the pair that a limit order of the same time would be signed for in that
session, that of the newest nonces, is one of them (`Expands`).

This holds for every session that a schedule reaches and every market order that is built from
it, alone or while other tasks run (`Schedule.expansion`).
-/

namespace SignedOrders.Session

open Tasks

/-- The combinations for which a market order that is built at some time spends one asset for
another, when it finds the session so. -/
structure Expands (s : Session) (source destination : Asset) (time : ℤ)
    (combinations : List Combination) : Prop where
  /-- They are all pairs of the two pools, the nonces that are spent outermost. -/
  product : combinations = (s.poolOf source.ticker).flatMap fun m =>
    (s.poolOf destination.ticker).map fun n => ⟨.value m, .value n, .ofClock time 0⟩
  length : combinations.length =
    (s.poolOf source.ticker).length * (s.poolOf destination.ticker).length
  nodup : combinations.Nodup
  /-- The newest nonces can be chosen, and are one of the pairs. -/
  newest : ∃ c ∈ combinations, Combination.latest (s.poolOf source.ticker)
    (s.poolOf destination.ticker) (.ofClock time 0) = .ok c
  /-- So is what the first limit order of a batch is signed for that is built from the session. -/
  limit : ∀ service (order : LimitOrder) asked signed, order.source.asset = source →
    order.destination = destination →
      Course (· = s) (Build.signLimit service time 0 order) asked (.returned signed) →
        signed.combination ∈ combinations

/-! ## The product of two pools -/

section

variable {sources destinations : List Int} {order : Nonce}

/-- All pairs of two pools. -/
def pairs (sources destinations : List Int) (order : Nonce) : List Combination :=
  sources.flatMap fun m => destinations.map fun n => ⟨.value m, .value n, order⟩

theorem pairs_eq_map_product (sources destinations : List Int) (order : Nonce) :
    pairs sources destinations order =
      (sources ×ˢ destinations).map fun pair => ⟨.value pair.1, .value pair.2, order⟩ := by
  simp [pairs, SProd.sprod, List.product, List.map_flatMap, Function.comp_def]

theorem mem_pairs {c : Combination} :
    c ∈ pairs sources destinations order ↔
      ∃ m ∈ sources, ∃ n ∈ destinations, c = ⟨.value m, .value n, order⟩ := by
  simp [pairs, eq_comm]

theorem length_pairs (sources destinations : List Int) (order : Nonce) :
    (pairs sources destinations order).length = sources.length * destinations.length := by
  rw [pairs_eq_map_product, List.length_map, List.length_product]

/-- Pools without repetition make no pair twice. -/
theorem nodup_pairs (hs : sources.Nodup) (hd : destinations.Nodup) (order : Nonce) :
    (pairs sources destinations order).Nodup := by
  rw [pairs_eq_map_product]
  refine (hs.product hd).map ?_
  intro p q same
  simp only [Combination.mk.injEq, Nonce.value.injEq, and_true] at same
  exact Prod.ext same.1 same.2

theorem latest_mem_pairs {c : Combination}
    (h : Combination.latest sources destinations order = .ok c) :
    c ∈ pairs sources destinations order := by
  obtain ⟨m, n, hm, hn, rfl⟩ := Combination.latest_eq_ok h
  exact mem_pairs.2 ⟨m, List.max?_mem hm, n, List.max?_mem hn, rfl⟩

end

/-! ## One build -/

section

variable {s : Session} {service : Service} {time : ℤ} {source destination : Asset}
  {combinations : List Combination}

/-- **The combinations of two pools of a sound session expand them.** -/
theorem PoolsSound.expands (sound : s.PoolsSound) {sources destinations : List Int}
    (hsources : s.pool source.ticker = .ok sources)
    (hdestinations : s.pool destination.ticker = .ok destinations)
    (h : Combination.expand sources destinations (.ofClock time 0) = .ok combinations) :
    s.Expands source destination time combinations := by
  have drawn := Combination.exists_latest (sound.drawable hsources) (sound.drawable hdestinations)
    (.ofClock time 0)
  obtain ⟨rfl, -⟩ := pool_eq_ok.1 hsources
  obtain ⟨rfl, -⟩ := pool_eq_ok.1 hdestinations
  obtain rfl : combinations = pairs _ _ _ := Combination.expand_eq_ok h
  constructor
  case product => rfl
  case length => exact length_pairs ..
  case nodup => exact nodup_pairs (sound.poolOf _).1 (sound.poolOf _).1 _
  case newest =>
    obtain ⟨c, newest, -⟩ := drawn
    exact ⟨c, latest_mem_pairs newest, newest⟩
  case limit =>
    intro service order asked signed spends receives course
    subst spends receives
    obtain ⟨-, -, t, sources, destinations, rfl, hsources, hdestinations, chosen⟩ :=
      Build.course_signLimit course
    obtain ⟨rfl, -⟩ := pool_eq_ok.1 hsources
    obtain ⟨rfl, -⟩ := pool_eq_ok.1 hdestinations
    exact latest_mem_pairs chosen

theorem pool_of_agrees {t : Session} (h : Agrees s t) (asset : String) :
    t.pool asset = s.pool asset := by
  unfold Session.pool
  rw [h.pools]

/-- A market order expands the pools of some session that its build has seen. -/
theorem exists_expands {seen : Session → Prop} {given : MarketRequest} {request : SignedRequest}
    {asked : List (Exchange signing)}
    (course : Course seen (Build.market service time given) asked (.returned request)) :
    ∃ order s, request.placement = .market order ∧ seen s ∧
      ∀ t : Session, t.PoolsSound → Agrees t s →
        t.Expands order.source.asset order.destination time request.combinations := by
  obtain ⟨-, -, order, -, -, -, placement, -, s, sources, destinations, hs, hsources,
    hdestinations, expanded⟩ := Build.course_market course
  refine ⟨order, s, placement, hs, fun t sound same => ?_⟩
  rw [pool_of_agrees same] at hsources hdestinations
  exact sound.expands hsources hdestinations expanded

end

namespace Schedule

/-- What holds of the market orders of a schedule. -/
structure Expansion (h : Schedule) : Prop where
  /-- A market order that is built from a session, while no other task runs, expands its pools. -/
  alone : ∀ k service time given respond request,
    ((Build.market service time given).evaluate respond (h.data k)).2 = .returned request →
      ∃ order, request.placement = .market order ∧
        (h.data k).Expands order.source.asset order.destination time request.combinations
  /-- A market order that a task has built expands the pools as they were at an event in which
  the task ran. -/
  among : ∀ k id time given request, h.Performs id (.marketOrder time given) →
    (h.data k).request? id = some request →
      ∃ order, request.placement = .market order ∧
        ∃ j, j < k ∧ (h.move j).task? = some id ∧
          (h.data j).Expands order.source.asset order.destination time request.combinations

/-- **Every market order of every schedule is signed for all combinations**, each once, and for
that of a limit order among them. -/
theorem expansion (h : Schedule) : h.Expansion := by
  constructor
  case alone =>
    intro k service time given respond request returned
    obtain ⟨-, asked, course, -⟩ :=
      (Build.readOnly_market service time given).evaluate respond (h.data k)
    rw [returned] at course
    obtain ⟨order, s, placement, seen, expands⟩ := exists_expands course
    exact ⟨order, placement, expands _ (h.poolsSound k) (agrees_of_eq seen)⟩
  case among =>
    intro k id time given request performs found
    obtain ⟨operation, build, performs', builds, asked, made, course, same⟩ := built found
    cases performs.unique performs'
    cases builds
    obtain ⟨order, s, placement, ⟨j, hj, moves, agrees⟩, expands⟩ := exists_expands course
    rw [same]
    exact ⟨order, placement, j, hj, moves, expands _ (h.poolsSound j) agrees⟩

end Schedule

end SignedOrders.Session
