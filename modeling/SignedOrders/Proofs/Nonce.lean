import SignedOrders.Nonce
import SignedOrders.Proofs.Failure

/-!
# Combinations of pooled nonces

Every combination for which an order is signed has a nonce of each pool: the highest ones
for `Combination.latest`, any for `Combination.expand`.
-/

namespace SignedOrders

theorem Nonce.pooled_eq_error_iff {n : Int} {e : Failure} :
    Nonce.pooled n = .error e ↔ ¬ (0 ≤ n ∧ n ≤ Nonce.largestPooled) ∧
      e = .of (.poolNonceOutOfRange Nonce.largestPooled n) := by
  unfold Nonce.pooled fail
  split <;> simp_all [eq_comm]

namespace Combination

variable {sources destinations : List Int} {order : Nonce}

theorem ofPooled_eq_ok {source destination : Int} {c : Combination} :
    ofPooled source destination order = .ok c ↔
      Nonce.pooled source = .ok source ∧ Nonce.pooled destination = .ok destination ∧
        c = ⟨.value source, .value destination, order⟩ := by
  unfold ofPooled
  constructor
  · intro h
    obtain ⟨m, hm, h⟩ := bind_eq_ok.1 h
    obtain ⟨n, hn, h⟩ := bind_eq_ok.1 h
    obtain ⟨rfl, -⟩ := Nonce.pooled_eq_ok_iff.1 hm
    obtain ⟨rfl, -⟩ := Nonce.pooled_eq_ok_iff.1 hn
    cases h
    exact ⟨hm, hn, rfl⟩
  · rintro ⟨hm, hn, rfl⟩
    exact bind_eq_ok.2 ⟨_, hm, bind_eq_ok.2 ⟨_, hn, rfl⟩⟩

theorem newest_eq_ok {pool : List Int} {n : Int} : newest pool = .ok n ↔ pool.max? = some n :=
  orFail_eq_ok

theorem latest_eq_ok {c : Combination} (h : latest sources destinations order = .ok c) :
    ∃ m n, sources.max? = some m ∧ destinations.max? = some n ∧
      c = ⟨.value m, .value n, order⟩ := by
  obtain ⟨m, hm, h⟩ := bind_eq_ok.1 h
  obtain ⟨m', hm', h⟩ := bind_eq_ok.1 h
  obtain ⟨n, hn, h⟩ := bind_eq_ok.1 h
  obtain ⟨n', hn', h⟩ := bind_eq_ok.1 h
  obtain ⟨rfl, -⟩ := Nonce.pooled_eq_ok_iff.1 hm'
  obtain ⟨rfl, -⟩ := Nonce.pooled_eq_ok_iff.1 hn'
  cases h
  exact ⟨_, _, newest_eq_ok.1 hm, newest_eq_ok.1 hn, rfl⟩

/-- All combinations of two pools, the first pool's nonce outermost. -/
theorem expand_eq_ok {combinations : List Combination}
    (h : expand sources destinations order = .ok combinations) :
    combinations = sources.flatMap fun m =>
      destinations.map fun n => ⟨.value m, .value n, order⟩ := by
  have each := (mapM_eq_ok.1 h).imp fun pair c made => (ofPooled_eq_ok.1 made).2.2.symm
  have made := List.forall₂_map_left_iff.2 each
  rw [List.forall₂_eq_eq_eq] at made
  rw [← made, List.map_flatMap]
  simp only [List.map_map, Function.comp_def]

/-! ## Combinations that can be made -/

/-- The pool has nonces, and all of them are such as pools can hold. -/
structure Drawable (pool : List Int) : Prop where
  full : pool ≠ []
  range : ∀ n ∈ pool, Nonce.pooled n = .ok n

theorem Drawable.exists_newest {pool : List Int} (h : Drawable pool) :
    ∃ n, newest pool = .ok n ∧ Nonce.pooled n = .ok n := by
  cases highest : pool.max? with
  | none => exact absurd (List.max?_eq_none_iff.1 highest) h.full
  | some n => exact ⟨n, newest_eq_ok.2 highest, h.range n (List.max?_mem highest)⟩

/-- **The newest nonces of two pools make a combination.** -/
theorem exists_latest (hs : Drawable sources) (hd : Drawable destinations) (order : Nonce) :
    ∃ c, latest sources destinations order = .ok c ∧
      ∃ m n, ofPooled m n order = .ok c := by
  obtain ⟨m, newestSource, hm⟩ := hs.exists_newest
  obtain ⟨n, newestDestination, hn⟩ := hd.exists_newest
  exact ⟨_, bind_eq_ok.2 ⟨m, newestSource, bind_eq_ok.2 ⟨m, hm, bind_eq_ok.2 ⟨n, newestDestination,
    bind_eq_ok.2 ⟨n, hn, rfl⟩⟩⟩⟩, m, n, ofPooled_eq_ok.2 ⟨hm, hn, rfl⟩⟩

/-- **All nonces of two pools make combinations.** -/
theorem exists_expand (hs : Drawable sources) (hd : Drawable destinations) (order : Nonce) :
    ∃ combinations, expand sources destinations order = .ok combinations ∧
      ∀ c ∈ combinations, ∃ m n, ofPooled m n order = .ok c := by
  cases expanded : expand sources destinations order with
  | error e =>
    obtain ⟨⟨m, n⟩, drawn, failed⟩ := exists_of_mapM_eq_error expanded
    obtain ⟨m', hm, drawn⟩ := List.mem_flatMap.1 drawn
    obtain ⟨n', hn, ⟨⟩⟩ := List.mem_map.1 drawn
    have made : ofPooled m n order = .ok _ :=
      ofPooled_eq_ok.2 ⟨hs.range m hm, hd.range n hn, rfl⟩
    cases failed.symm.trans made
  | ok combinations =>
    refine ⟨combinations, rfl, fun c hc => ?_⟩
    obtain ⟨⟨m, n⟩, -, made⟩ := exists_of_mem_mapM expanded hc
    exact ⟨m, n, made⟩

end Combination

end SignedOrders
