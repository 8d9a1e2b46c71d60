import SignedOrders.Proofs.Nonce
import SignedOrders.Session.Pools

/-!
# What advancing does to the pools

Advancing gives the pool of each asset that has consumed nonces what **remains** of it,
and leaves the pools of all other assets (`find?_consume`).  A nonce is in what remains
if it was in the pool and is not consumed, or else is the successor of the highest
consumed nonce of a pool that the consumption drains (`mem_of_remaining`).
-/

namespace SignedOrders.Pools

variable {pools after : Pools} {pool values rest : List Int} {consumed : List (String × List Int)}
  {asset other : String}

/-! ## Lookup -/

theorem get_eq_ok : pools.get asset = .ok pool ↔ pools.find? asset = some pool ∧ pool ≠ [] := by
  unfold get
  split
  · rename_i n rest found
    rw [found, Except.ok.injEq, Option.some.injEq]
    constructor
    · rintro rfl
      exact ⟨rfl, List.cons_ne_nil _ _⟩
    · exact fun h => h.1
  · rename_i none_or_empty
    constructor
    · intro h
      cases h
    · rintro ⟨found, full⟩
      cases pool with
      | nil => exact absurd rfl full
      | cons n rest => exact absurd found (none_or_empty n rest)

theorem find?_put (pools : Pools) (asset : String) (pool : List Int) (other : String) :
    (pools.put asset pool).find? other =
      if other = asset then (pools.find? other).map fun _ => pool else pools.find? other := by
  obtain ⟨entries⟩ := pools
  unfold put find?
  induction entries with
  | nil => simp
  | cons entry entries ih =>
    obtain ⟨name, old⟩ := entry
    rw [List.map_cons, List.lookup_cons, List.lookup_cons]
    by_cases hit : other = name
    · subst hit
      by_cases same : other = asset <;> simp [same]
    · have miss : (other == name) = false := beq_false_of_ne hit
      have missed : (other == (if (name == asset) = true then (asset, pool) else (name, old)).1) =
          false := by
        by_cases same : name = asset
        · simpa [same] using same ▸ hit
        · simpa [same] using hit
      simpa only [miss, missed] using ih

/-! ## What remains of one pool -/

/-- Either some of the pool remains, or all of it is consumed and it goes on from the
successor of the highest consumed nonce. -/
theorem remaining_eq_ok (hvalues : values ≠ []) :
    remaining pool values = .ok rest ↔
      rest = pool.filter (· ∉ values) ∧ rest ≠ [] ∨
        (∀ n ∈ pool, n ∈ values) ∧ ∃ highest, values.max? = some highest ∧
          Nonce.pooled (highest + 1) = .ok (highest + 1) ∧ rest = [highest + 1] := by
  have drained : pool.filter (· ∉ values) = [] ↔ ∀ n ∈ pool, n ∈ values := by
    simp [List.filter_eq_nil_iff]
  rw [← drained]
  obtain ⟨highest, hhighest⟩ := Option.isSome_iff_exists.1 (List.isSome_max?_of_ne_nil hvalues)
  unfold remaining
  rw [hhighest]
  cases kept : pool.filter (· ∉ values) with
  | nil =>
    simp only [map_eq_ok, Nonce.pooled_eq_ok_iff]
    constructor
    · rintro ⟨n, ⟨rfl, range⟩, rfl⟩
      exact .inr ⟨trivial, highest, rfl, ⟨trivial, range⟩, rfl⟩
    · rintro (⟨rfl, full⟩ | ⟨-, _, ⟨⟩, ⟨-, range⟩, rfl⟩)
      · exact absurd rfl full
      · exact ⟨_, ⟨rfl, range⟩, rfl⟩
  | cons n kept =>
    simp only [Except.ok.injEq]
    constructor
    · rintro rfl
      exact .inl ⟨rfl, List.cons_ne_nil _ _⟩
    · rintro (⟨rfl, -⟩ | ⟨empty, -⟩)
      · rfl
      · cases empty

theorem mem_of_remaining (hvalues : values ≠ []) (h : remaining pool values = .ok rest) (n : Int) :
    n ∈ rest ↔ n ∈ pool ∧ n ∉ values ∨
      (∀ m ∈ pool, m ∈ values) ∧ ∃ highest, values.max? = some highest ∧ n = highest + 1 := by
  rcases (remaining_eq_ok hvalues).1 h with ⟨rfl, full⟩ | ⟨drained, highest, hhighest, -, rfl⟩
  -- something remains, so that the pool is not drained
  · obtain ⟨m, hm⟩ := List.exists_mem_of_ne_nil _ full
    obtain ⟨hpool, hfree⟩ := List.mem_filter.1 hm
    constructor
    · intro hn
      exact .inl (by simpa using hn)
    · rintro (hn | ⟨drained, -⟩)
      · simpa using hn
      · exact absurd (drained m hpool) (by simpa using hfree)
  · rw [List.mem_singleton]
    constructor
    · rintro rfl
      exact .inr ⟨drained, highest, hhighest, rfl⟩
    · rintro (⟨hpool, hfree⟩ | ⟨-, m, hm, rfl⟩)
      · exact absurd (drained n hpool) hfree
      · rw [Option.some.inj (hhighest.symm.trans hm)]

/-! ## All pools -/

/-- **Consumption** of nonces of distinct assets gives each of them what remains of its pool,
and changes no other pool. -/
theorem find?_consume (h : pools.consume consumed = .ok after)
    (distinct : (consumed.map Prod.fst).Nodup) (full : ∀ entry ∈ consumed, entry.2 ≠ []) :
    (∀ asset values, (asset, values) ∈ consumed → ∃ pool rest, pools.find? asset = some pool ∧
        pool ≠ [] ∧ remaining pool values = .ok rest ∧ after.find? asset = some rest) ∧
      ∀ asset, asset ∉ consumed.map Prod.fst → after.find? asset = pools.find? asset := by
  induction consumed generalizing pools with
  | nil =>
    cases h
    exact ⟨by simp, fun _ _ => rfl⟩
  | cons entry consumed ih =>
    obtain ⟨first, values⟩ := entry
    obtain ⟨fresh, distinct⟩ := List.nodup_cons.1 distinct
    obtain ⟨fullFirst, full⟩ := List.forall_mem_cons.1 full
    rw [consume, if_neg fullFirst] at h
    obtain ⟨pool, found, h⟩ := bind_eq_ok.1 h
    obtain ⟨rest, left, h⟩ := bind_eq_ok.1 h
    obtain ⟨found, holds⟩ := get_eq_ok.1 found
    obtain ⟨changed, same⟩ := ih h distinct full
    -- the later assets are others, whose pools the first one has left
    constructor
    · intro asset values' hentry
      rcases List.mem_cons.1 hentry with heq | hmem
      · cases heq
        refine ⟨pool, rest, found, holds, left, ?_⟩
        rw [same first fresh, find?_put, if_pos rfl, found, Option.map_some]
      · have hne : asset ≠ first := by
          rintro rfl
          exact fresh (List.mem_map.2 ⟨_, hmem, rfl⟩)
        obtain ⟨pool', rest', found', rest⟩ := changed asset values' hmem
        rw [find?_put, if_neg hne] at found'
        exact ⟨pool', rest', found', rest⟩
    · intro asset hasset
      rw [List.map_cons, List.mem_cons, not_or] at hasset
      rw [same asset hasset.2, find?_put, if_neg hasset.1]

/-! ## Where advancing fails -/

variable {e : Failure}

theorem get_eq_error : pools.get asset = .error e ↔
    (∀ pool, pools.find? asset = some pool → pool = []) ∧ e = .of (.noPool asset) := by
  unfold get
  split
  · rename_i n rest found
    constructor
    · rintro ⟨⟩
    · rintro ⟨empty, -⟩
      cases empty _ found
  · rename_i none_or_empty
    constructor
    · rintro ⟨⟩
      refine ⟨fun pool found => ?_, rfl⟩
      cases pool with
      | nil => rfl
      | cons n rest => exact absurd found (none_or_empty n rest)
    · rintro ⟨-, rfl⟩
      rfl

theorem get_put_of_ne (h : other ≠ asset) : (pools.put asset pool).get other = pools.get other := by
  unfold get
  rw [find?_put, if_neg h]

/-- A pool cannot go on if all of it is consumed and the successor of the highest consumed nonce
is no nonce of a pool. -/
theorem remaining_eq_error (h : remaining pool values = .error e) :
    (∀ n ∈ pool, n ∈ values) ∧ ∃ highest, values.max? = some highest ∧
      ¬ (0 ≤ highest + 1 ∧ highest + 1 ≤ Nonce.largestPooled) ∧
        e = .of (.poolNonceOutOfRange Nonce.largestPooled (highest + 1)) := by
  unfold remaining at h
  split at h
  · rename_i highest drained hhighest
    refine ⟨by simpa [List.filter_eq_nil_iff] using drained, highest, hhighest, ?_⟩
    exact Nonce.pooled_eq_error_iff.1 (map_eq_error.1 h)
  · cases h

/-- The consumption of nonces of distinct assets fails at one of them, of which there is no
pool or whose pool cannot go on. -/
theorem consume_eq_error (h : pools.consume consumed = .error e)
    (distinct : (consumed.map Prod.fst).Nodup) :
    ∃ asset values, (asset, values) ∈ consumed ∧ (pools.get asset = .error e ∨
      ∃ pool, pools.get asset = .ok pool ∧ remaining pool values = .error e) := by
  induction consumed generalizing pools with
  | nil => cases h
  | cons entry consumed ih =>
    obtain ⟨first, values⟩ := entry
    obtain ⟨fresh, distinct⟩ := List.nodup_cons.1 distinct
    -- the later assets are others, whose pools the first one has left
    have later {after : Pools} (h : after.consume consumed = .error e)
        (same : ∀ other, other ≠ first → after.get other = pools.get other) :
        ∃ asset values', (asset, values') ∈ (first, values) :: consumed ∧
          (pools.get asset = .error e ∨
            ∃ pool, pools.get asset = .ok pool ∧ remaining pool values' = .error e) := by
      obtain ⟨asset, values', hmem, failed⟩ := ih h distinct
      have hne : asset ≠ first := by
        rintro rfl
        exact fresh (List.mem_map.2 ⟨_, hmem, rfl⟩)
      rw [same asset hne] at failed
      exact ⟨asset, values', List.mem_cons_of_mem _ hmem, failed⟩
    rw [consume] at h
    split at h
    · exact later h fun _ _ => rfl
    · rcases bind_eq_error.1 h with missing | ⟨pool, found, h⟩
      · exact ⟨first, values, List.mem_cons_self, .inl missing⟩
      · rcases bind_eq_error.1 h with stuck | ⟨rest, -, h⟩
        · exact ⟨first, values, List.mem_cons_self, .inr ⟨pool, found, stuck⟩⟩
        · exact later h fun _ => get_put_of_ne

/-- **Advancing fails** at an asset of which there is no pool, or whose pool cannot go on. -/
theorem advance_eq_error (h : pools.advance consumed = .error e)
    (distinct : (consumed.map Prod.fst).Nodup) :
    ∃ asset values, (asset, values) ∈ consumed ∧ (pools.get asset = .error e ∨
      ∃ pool, pools.get asset = .ok pool ∧ remaining pool values = .error e) := by
  rcases bind_eq_error.1 h with missing | ⟨_, -, h⟩
  · obtain ⟨⟨asset, values⟩, hmem, missing⟩ := exists_of_mapM_eq_error missing
    exact ⟨asset, values, hmem, .inl missing⟩
  · exact consume_eq_error h distinct

end SignedOrders.Pools
