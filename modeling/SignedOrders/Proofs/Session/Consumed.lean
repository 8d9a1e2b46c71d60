import Mathlib.Data.List.Nodup
import SignedOrders.Proofs.Nonce
import SignedOrders.Proofs.Session.Build
import SignedOrders.Proofs.Session.Pools

/-!
# The nonces of signed requests

A request is signed with nonces that were in the pools when it was built
(`Build.signsPooled_limits`, `Build.signsPooled_market`).  The nonces that its settlement
consumes are given by asset, each asset once, and advance the pools of these assets only
(`poolOf_advance`).
-/

namespace SignedOrders

/-! ## Nonces of a request -/

namespace SignedRequest

variable {request : SignedRequest} {settled : Option (List Combination)}

theorem mem_nonces {sides : List (Asset × Asset × Combination)} {asset : Asset} {n : Int} :
    (asset, n) ∈ nonces sides ↔ ∃ side ∈ sides,
      side.1 = asset ∧ side.2.2.source.value? = some n ∨
        side.2.1 = asset ∧ side.2.2.destination.value? = some n := by
  induction sides with
  | nil => simp [nonces]
  | cons side sides ih =>
    obtain ⟨source, destination, c⟩ := side
    simp only [nonces, List.mem_append, ih, List.mem_cons, exists_eq_or_imp]
    have one (o : Option Int) (a : Asset) :
        (asset, n) ∈ (o.map fun n => (a, n)).toList ↔ a = asset ∧ o = some n := by
      cases o <;> simp [eq_comm]
    rw [one, one]

/-- Every asset that consumes nonces is named once. -/
theorem consumed_distinct (request : SignedRequest) (settled : Option (List Combination)) :
    ((request.consumed settled).map Prod.fst).Nodup := by
  unfold consumed grouped
  rw [List.map_map]
  refine List.Nodup.map ?_ (Pools.nodup_firstSeen _)
  exact fun a b h => Asset.ticker_inj h

/-- Every asset that is named consumes some nonce. -/
theorem consumed_full (request : SignedRequest) (settled : Option (List Combination)) :
    ∀ entry ∈ request.consumed settled, entry.2 ≠ [] := by
  intro entry hentry
  obtain ⟨asset, hasset, rfl⟩ := List.mem_map.1 hentry
  obtain ⟨pair, hpair, rfl⟩ := List.mem_map.1 (Pools.mem_firstSeen.1 hasset)
  refine List.ne_nil_of_mem (Pools.mem_firstSeen.2 (List.mem_map.2 ⟨pair, ?_, rfl⟩))
  exact List.mem_filter.2 ⟨hpair, decide_eq_true rfl⟩

/-- What is consumed depends on the signed combinations only. -/
theorem consumed_congr {request' : SignedRequest} (sides : request'.sides = request.sides) :
    request'.consumed settled = request.consumed settled := by
  unfold consumed
  rw [sides]

end SignedRequest

namespace Session

open Tasks

/-- The pool of an asset, if there is one. -/
def pool? (s : Session) (name : String) : Option (List Int) := s.pools.bind (·.find? name)

/-- The nonces in the pool of an asset, none if it has no pool. -/
def poolOf (s : Session) (asset : String) : List Int := (s.pools.bind (·.find? asset)).getD []

theorem poolOf_eq (s : Session) (asset : String) : s.poolOf asset = (s.pool? asset).getD [] := rfl

theorem pool_eq_ok {s : Session} {asset : String} {pool : List Int} :
    s.pool asset = .ok pool ↔ s.poolOf asset = pool ∧ pool ≠ [] := by
  unfold Session.pool poolOf
  cases s.pools with
  | none =>
    constructor
    · intro h
      cases h
    · rintro ⟨rfl, full⟩
      exact absurd rfl full
  | some pools =>
    rw [Pools.get_eq_ok, Option.bind_some]
    cases pools.find? asset with
    | none =>
      constructor
      · rintro ⟨⟨⟩, -⟩
      · rintro ⟨rfl, full⟩
        exact absurd rfl full
    | some held => rw [Option.some.injEq, Option.getD_some]

/-- An advance of a session is one of its pools, if it has any. -/
theorem advance_cases {s t : Session} {consumed : List (String × List Int)}
    (h : s.advance consumed = .ok t) :
    (∃ pools after, s.pools = some pools ∧ pools.consume consumed = .ok after ∧
        t = { s with pools := some after }) ∨
      s.pools = none ∧ consumed = [] ∧ t = { s with pools := some ⟨[]⟩ } := by
  unfold Session.advance at h
  split at h
  · rename_i pools hpools
    obtain ⟨after, advanced, rfl⟩ := map_eq_ok.1 h
    obtain ⟨_, -, advanced⟩ := bind_eq_ok.1 advanced
    exact .inl ⟨pools, after, hpools, advanced, rfl⟩
  · rename_i hpools
    split at h
    · cases h
      exact .inr ⟨hpools, rfl, rfl⟩
    · cases h

/-- Consuming nonces changes the pools only. -/
theorem eq_of_advance {s t : Session} {consumed : List (String × List Int)}
    (h : s.advance consumed = .ok t) : t = { s with pools := t.pools } := by
  rcases advance_cases h with ⟨pools, after, -, -, rfl⟩ | ⟨-, -, rfl⟩
  · rfl
  · rfl

/-- The consumption of nonces of distinct assets changes the pools of these assets to what
remains of them. -/
theorem pool?_advance {s t : Session} {consumed : List (String × List Int)}
    (h : s.advance consumed = .ok t) (distinct : (consumed.map Prod.fst).Nodup)
    (full : ∀ entry ∈ consumed, entry.2 ≠ []) :
    (∀ name values, (name, values) ∈ consumed → ∃ pool rest, s.pool? name = some pool ∧
        Pools.remaining pool values = .ok rest ∧ t.pool? name = some rest) ∧
      ∀ name, name ∉ consumed.map Prod.fst → t.pool? name = s.pool? name := by
  unfold pool?
  rcases advance_cases h with ⟨pools, after, hpools, advanced, rfl⟩ | ⟨hpools, rfl, rfl⟩
  · obtain ⟨changed, same⟩ := Pools.find?_consume advanced distinct full
    rw [hpools]
    refine ⟨fun name values hmem => ?_, same⟩
    obtain ⟨pool, rest, found, -, left, found'⟩ := changed name values hmem
    exact ⟨pool, rest, found, left, found'⟩
  · rw [hpools]
    exact ⟨by rintro _ _ ⟨⟩, fun _ _ => rfl⟩

/-- The consumption of nonces of distinct assets changes the pools of these assets to what
remains of them, and nothing else of the session. -/
theorem poolOf_advance {s t : Session} {consumed : List (String × List Int)}
    (h : s.advance consumed = .ok t) (distinct : (consumed.map Prod.fst).Nodup)
    (full : ∀ entry ∈ consumed, entry.2 ≠ []) :
    (∀ asset values, (asset, values) ∈ consumed →
        Pools.remaining (s.poolOf asset) values = .ok (t.poolOf asset)) ∧
      (∀ asset, asset ∉ consumed.map Prod.fst → t.poolOf asset = s.poolOf asset) ∧
        t = { s with pools := t.pools } := by
  obtain ⟨changed, same⟩ := pool?_advance h distinct full
  refine ⟨fun asset values hmem => ?_, fun asset hasset => ?_, eq_of_advance h⟩
  · obtain ⟨pool, rest, found, left, found'⟩ := changed asset values hmem
    rw [poolOf_eq, poolOf_eq, found, found']
    exact left
  · rw [poolOf_eq, poolOf_eq, same asset hasset]

/-! ## Nonces of builds -/

namespace Build

/-- The requests of a build are signed with nonces of pools that the build has seen. -/
def SignsPooled (build : Action SignedRequest) : Prop :=
  ∀ (seen : Session → Prop) asked request asset n,
    Course seen build asked (.returned request) → (asset, n) ∈ SignedRequest.nonces request.sides →
      ∃ s, seen s ∧ n ∈ s.poolOf asset.ticker

theorem signsPooled_limits (service : Service) (time : Int) (requests : List LimitRequest) :
    SignsPooled (limits service time requests) := by
  intro seen asked request asset n h hn
  obtain ⟨orders, signed, inner, -, -, each, -, hplacement, hcombinations, -⟩ := course_limits h
  obtain ⟨side, hside, hn⟩ := SignedRequest.mem_nonces.1 hn
  rw [SignedRequest.sides, hplacement, hcombinations] at hside
  obtain ⟨⟨order, c⟩, hzip, rfl⟩ := List.mem_map.1 hside
  nth_rewrite 1 [← List.zipIdx_map_fst 0 orders] at hzip
  rw [List.zip_map] at hzip
  obtain ⟨⟨pair, result⟩, hpair, heq⟩ := List.mem_map.1 hzip
  cases heq
  obtain ⟨asked, course⟩ := each.of_mem_zip hpair
  obtain ⟨-, -, s, sources, destinations, hs, hsources, hdestinations, hc⟩ :=
    course_signLimit course
  obtain ⟨rfl, -⟩ := pool_eq_ok.1 hsources
  obtain ⟨rfl, -⟩ := pool_eq_ok.1 hdestinations
  obtain ⟨m, m', hm, hm', hc⟩ := Combination.latest_eq_ok hc
  refine ⟨s, hs, ?_⟩
  simp only [hc, Nonce.value?, Option.some.injEq] at hn
  rcases hn with ⟨rfl, rfl⟩ | ⟨rfl, rfl⟩
  · exact List.max?_mem hm
  · exact List.max?_mem hm'

theorem signsPooled_market (service : Service) (time : Int) (given : MarketRequest) :
    SignsPooled (market service time given) := by
  intro seen asked request asset n h hn
  obtain ⟨-, -, order, -, -, -, hplacement, -, s, sources, destinations, hs, hsources,
    hdestinations, hc⟩ := course_market h
  obtain ⟨side, hside, hn⟩ := SignedRequest.mem_nonces.1 hn
  obtain ⟨rfl, -⟩ := pool_eq_ok.1 hsources
  obtain ⟨rfl, -⟩ := pool_eq_ok.1 hdestinations
  rw [SignedRequest.sides, hplacement, Combination.expand_eq_ok hc] at hside
  obtain ⟨c, hmem, rfl⟩ := List.mem_map.1 hside
  obtain ⟨m, hm, hmem⟩ := List.mem_flatMap.1 hmem
  obtain ⟨m', hm', rfl⟩ := List.mem_map.1 hmem
  refine ⟨s, hs, ?_⟩
  simp only [Nonce.value?, Option.some.injEq] at hn
  rcases hn with ⟨rfl, rfl⟩ | ⟨rfl, rfl⟩
  · exact hm
  · exact hm'

end Build

end Session

end SignedOrders
