import SignedOrders.Proofs.Session.Commit
import SignedOrders.Proofs.Session.CommitOnce
import SignedOrders.Proofs.Session.Taken

/-!
# What a commit does

A commit **spends** the nonces of the combinations that have settled: each asset's pool
loses them, and a pool that would be left empty goes on from the successor of the highest of
them.  It does so for all assets, or it fails and changes nothing.

It fails only where the pools have been replaced since the build and an asset is left
without a pool, or where a pool is spent whole up to the highest nonce that a pool can hold
(`Schedule.commit_exact`).
-/

namespace SignedOrders

/-! ## Nonces that are spent -/

/-- What is left of a pool when some nonces are spent. -/
def Pools.afterSpending (pool spent : List Int) : List Int :=
  match pool.filter (· ∉ spent), spent.max? with
  | [], some highest => [highest + 1]
  | rest, _ => rest

/-- The nonces of an asset in the signed combinations that have settled; in all, if none are
given. -/
def SignedRequest.spent (request : SignedRequest) (settled : Option (List Combination))
    (asset : Asset) : List Int :=
  (request.sides.filter fun side => settled.all (·.contains side.2.2)).flatMap fun side =>
    (if side.1 = asset then side.2.2.source.value?.toList else []) ++
      if side.2.1 = asset then side.2.2.destination.value?.toList else []

namespace Pools

variable {pool values spent rest : List Int}

theorem max?_eq_of_mem_iff (same : ∀ n, n ∈ values ↔ n ∈ spent) : values.max? = spent.max? := by
  have highest {l l' : List Int} (same : ∀ n, n ∈ l ↔ n ∈ l') {m : Int} (h : l.max? = some m) :
      l'.max? = some m := by
    obtain ⟨hm, bound⟩ := List.max?_eq_some_iff.1 h
    exact List.max?_eq_some_iff.2 ⟨(same m).1 hm, fun n hn => bound n ((same n).2 hn)⟩
  cases h : values.max? with
  | some m => exact (highest same h).symm
  | none =>
    cases h' : spent.max? with
    | none => rfl
    | some m => cases h.symm.trans (highest (fun n => (same n).symm) h')

@[simp] theorem afterSpending_nil (pool : List Int) : afterSpending pool [] = pool := by
  unfold afterSpending
  simp

theorem remaining_eq_afterSpending (h : remaining pool values = .ok rest)
    (same : ∀ n, n ∈ values ↔ n ∈ spent) : rest = afterSpending pool spent := by
  have kept : pool.filter (· ∉ values) = pool.filter (· ∉ spent) := by
    simp only [same]
  unfold remaining at h
  unfold afterSpending
  rw [kept, max?_eq_of_mem_iff same] at h
  cases left : pool.filter (· ∉ spent) with
  | nil =>
    rw [left] at h
    cases highest : spent.max? with
    | none =>
      rw [highest] at h
      cases h
      rfl
    | some n =>
      rw [highest] at h
      obtain ⟨m, pooled, rfl⟩ := map_eq_ok.1 h
      rw [← (Nonce.pooled_eq_ok_iff.1 pooled).1]
  | cons n kept =>
    rw [left] at h
    cases h
    rfl

end Pools

namespace SignedRequest

variable {request : SignedRequest} {settled : Option (List Combination)} {asset : Asset} {n : Int}

theorem mem_spent : n ∈ request.spent settled asset ↔
    (asset, n) ∈ nonces (request.sides.filter fun side => settled.all (·.contains side.2.2)) := by
  have one (o : Option Int) (a : Asset) :
      n ∈ (if a = asset then o.toList else []) ↔ a = asset ∧ o = some n := by
    by_cases h : a = asset <;> simp [h]
  unfold spent
  simp only [List.mem_flatMap, List.mem_append, one, mem_nonces]

/-- What is spent has been signed. -/
theorem mem_nonces_of_mem_spent (h : n ∈ request.spent settled asset) :
    (asset, n) ∈ nonces request.sides := by
  obtain ⟨side, hside, parts⟩ := mem_nonces.1 (mem_spent.1 h)
  exact mem_nonces.2 ⟨side, List.mem_of_mem_filter hside, parts⟩

/-- A commit consumes what is spent. -/
theorem consumed_eq (request : SignedRequest) (settled : Option (List Combination)) :
    request.consumed settled = grouped (nonces
      (request.sides.filter fun side => settled.all (·.contains side.2.2))) := by
  unfold consumed
  cases settled <;> rfl

theorem mem_group {pairs : List (Asset × Int)} :
    n ∈ Pools.firstSeen ((pairs.filter (·.1 = asset)).map (·.2)) ↔ (asset, n) ∈ pairs := by
  rw [Pools.mem_firstSeen, List.mem_map]
  constructor
  · rintro ⟨⟨_, n⟩, hpair, rfl⟩
    obtain ⟨hpair, named⟩ := List.mem_filter.1 hpair
    rwa [← of_decide_eq_true named]
  · exact fun hn => ⟨(asset, n), List.mem_filter.2 ⟨hn, decide_eq_true rfl⟩, rfl⟩

/-- What is consumed of an asset is what is spent of it, and not nothing. -/
theorem mem_consumed {name : String} {values : List Int}
    (h : (name, values) ∈ request.consumed settled) :
    ∃ asset : Asset, name = asset.ticker ∧ (∃ n, n ∈ request.spent settled asset) ∧
      ∀ n, n ∈ values ↔ n ∈ request.spent settled asset := by
  obtain ⟨n, hn⟩ := List.exists_mem_of_ne_nil _ (request.consumed_full settled _ h)
  rw [consumed_eq] at h
  obtain ⟨asset, -, heq⟩ := List.mem_map.1 h
  cases heq
  refine ⟨asset, rfl, ⟨n, mem_spent.2 (mem_group.1 hn)⟩, fun n => ?_⟩
  rw [mem_group, mem_spent]

theorem ticker_mem_consumed (h : n ∈ request.spent settled asset) :
    asset.ticker ∈ (request.consumed settled).map Prod.fst := by
  rw [consumed_eq]
  refine List.mem_map.2 ⟨_, List.mem_map.2 ⟨asset, ?_, rfl⟩, rfl⟩
  exact Pools.mem_firstSeen.2 (List.mem_map.2 ⟨(asset, n), mem_spent.1 h, rfl⟩)

end SignedRequest

namespace Session

open Tasks

/-- The nonces of a request that have settled are spent, the request counts as committed, and
nothing else has changed. -/
structure Spends (id : Nat) (request : SignedRequest) (settled : Option (List Combination))
    (s t : Session) : Prop where
  assets : ∀ asset : Asset, t.pool? asset.ticker =
    (s.pool? asset.ticker).map (Pools.afterSpending · (request.spent settled asset))
  others : ∀ name, (∀ asset : Asset, asset.ticker ≠ name) → t.pool? name = s.pool? name
  rest : t = { markCommitted id s with pools := t.pools }

section

variable {s t : Session} {id : Nat} {request : SignedRequest} {settled : Option (List Combination)}
  {e : Failure}

/-- **A commit that consumes** spends what has settled. -/
theorem spends_of_advance (h : s.advance (request.consumed settled) = .ok t) :
    Spends id request settled s (markCommitted id t) := by
  have distinct := request.consumed_distinct settled
  have full := request.consumed_full settled
  obtain ⟨changed, same⟩ := pool?_advance h distinct full
  constructor
  case assets =>
    intro asset
    show t.pool? asset.ticker = _
    by_cases named : asset.ticker ∈ (request.consumed settled).map Prod.fst
    · obtain ⟨⟨name, values⟩, hmem, rfl⟩ := List.mem_map.1 named
      obtain ⟨other, name, -, spent⟩ := SignedRequest.mem_consumed hmem
      cases Asset.ticker_inj name
      obtain ⟨pool, rest, found, left, found'⟩ := changed _ _ hmem
      rw [found, found', Pools.remaining_eq_afterSpending left spent, Option.map_some]
    · have nothing : request.spent settled asset = [] := by
        rw [List.eq_nil_iff_forall_not_mem]
        exact fun n hn => named (SignedRequest.ticker_mem_consumed hn)
      rw [same _ named, nothing]
      cases s.pool? asset.ticker <;> simp
  case others =>
    intro name unknown
    refine same name fun named => ?_
    obtain ⟨⟨name, values⟩, hmem, rfl⟩ := List.mem_map.1 named
    obtain ⟨asset, rfl, -⟩ := SignedRequest.mem_consumed hmem
    exact unknown asset rfl
  case rest =>
    rw [eq_of_advance h]
    rfl

/-- What is wrong where nonces cannot be consumed: an asset has no pool, or its pool cannot
go on. -/
theorem advance_eq_error (h : s.advance (request.consumed settled) = .error e) :
    ∃ asset : Asset, (∃ n, n ∈ request.spent settled asset) ∧
      (s.poolOf asset.ticker = [] ∧ e = .of (.noPool asset.ticker) ∨
        s.poolOf asset.ticker ≠ [] ∧
          (∀ n ∈ s.poolOf asset.ticker, n ∈ request.spent settled asset) ∧
          ∃ highest, (request.spent settled asset).max? = some highest ∧
            ¬ (0 ≤ highest + 1 ∧ highest + 1 ≤ Nonce.largestPooled) ∧
              e = .of (.poolNonceOutOfRange Nonce.largestPooled (highest + 1))) := by
  unfold Session.advance at h
  unfold poolOf
  split at h
  · rename_i pools hpools
    rw [hpools]
    obtain ⟨name, values, hmem, failed⟩ :=
      Pools.advance_eq_error (map_eq_error.1 h) (request.consumed_distinct settled)
    obtain ⟨asset, rfl, some_spent, spent⟩ := SignedRequest.mem_consumed hmem
    refine ⟨asset, some_spent, ?_⟩
    rcases failed with missing | ⟨pool, found, stuck⟩
    · obtain ⟨empty, rfl⟩ := Pools.get_eq_error.1 missing
      refine .inl ⟨?_, rfl⟩
      rw [Option.bind_some]
      cases found : pools.find? asset.ticker with
      | none => rfl
      | some pool => exact empty pool found
    · obtain ⟨found, full⟩ := Pools.get_eq_ok.1 found
      obtain ⟨drained, highest, hhighest, beyond, rfl⟩ := Pools.remaining_eq_error stuck
      rw [Option.bind_some, found, Option.getD_some]
      refine .inr ⟨full, fun n hn => (spent n).1 (drained n hn), highest, ?_, beyond, rfl⟩
      rw [← Pools.max?_eq_of_mem_iff spent, hhighest]
  · rename_i hpools
    rw [hpools]
    split at h
    · cases h
    · rename_i name values rest consumed
      obtain ⟨asset, rfl, some_spent, -⟩ :=
        SignedRequest.mem_consumed (consumed ▸ List.mem_cons_self)
      cases h
      exact ⟨asset, some_spent, .inl ⟨rfl, rfl⟩⟩

end

namespace Schedule

variable {h : Schedule} {writes : Nat → List Nat} {k task id : Nat} {request : SignedRequest}
  {settled : Option (List Combination)} {e : Failure}

/-- Why a commit of a request is refused. -/
inductive Refusal (h : Schedule) (k id : Nat) (request : SignedRequest)
    (settled : Option (List Combination)) : Failure → Prop where
  /-- An asset of which a nonce is spent has no pool any more: the pools have been replaced
  since the build ran and took the nonce. -/
  | noPool (asset : Asset) (n : Int) (spends : n ∈ request.spent settled asset)
      (empty : (h.data k).poolOf asset.ticker = []) (j : Nat) (before : j < k)
      (builds : (h.move j).task? = some id) (taken : n ∈ (h.data j).poolOf asset.ticker)
      (replaced : h.Replaced j k) : Refusal h k id request settled (.of (.noPool asset.ticker))
  /-- A pool is spent whole, up to the highest nonce that a pool can hold. -/
  | drained (asset : Asset) (full : (h.data k).poolOf asset.ticker ≠ [])
      (all_spent : ∀ n ∈ (h.data k).poolOf asset.ticker, n ∈ request.spent settled asset)
      (highest : (request.spent settled asset).max? = some (2 ^ 32 - 2)) :
      Refusal h k id request settled
        (.of (.poolNonceOutOfRange Nonce.largestPooled (2 ^ 32 - 1)))

theorem refusal_of_advance (found : (h.data k).request? id = some request)
    (refused : (h.data k).advance (request.consumed settled) = .error e) :
    h.Refusal k id request settled e := by
  obtain ⟨asset, ⟨n, hn⟩, ⟨empty, rfl⟩ | ⟨full, all_spent, highest, hhighest, beyond, rfl⟩⟩ :=
    advance_eq_error refused
  · obtain ⟨j, hjk, builds, taken⟩ := taken found (SignedRequest.mem_nonces_of_mem_spent hn)
    refine .noPool asset n hn empty j hjk builds taken ?_
    by_contra stays
    exact full_of_full (by omega) stays (List.ne_nil_of_mem taken) empty
  · -- the highest nonce is one that a pool can hold, and its successor is not
    obtain ⟨low, high⟩ := nonces_range found
      (SignedRequest.mem_nonces_of_mem_spent (List.max?_mem hhighest))
    have largest : (Nonce.largestPooled : Int) = 2 ^ 32 - 2 := by decide
    have is : highest = 2 ^ 32 - 2 := by omega
    subst is
    exact .drained asset full all_spent hhighest

/-- Where a commit advances the pools in a schedule, it spends the nonces of its request. -/
theorem Advances.spends (advances : h.Advances writes k task id) (traced : h.Traced writes) :
    ∃ settled request, h.Performs task (.commit id settled) ∧
      (h.data k).request? id = some request ∧
        Spends id request settled (h.data k) (h.data (k + 1)) := by
  obtain ⟨settled, consuming⟩ := advances.consuming traced
  obtain ⟨request, t, found, -, advanced, after⟩ := consuming.consumes
  refine ⟨settled, request, consuming.performs, found, ?_⟩
  rw [after]
  exact spends_of_advance advanced

/-- **A commit does all or nothing**, in whatever state the session is: it returns `true`, and the
nonces that have settled are spent, or it fails and nothing has changed. -/
theorem commit_exact (h : Schedule) (k : Nat) {id : Nat} {request : SignedRequest}
    (found : (h.data k).request? id = some request) (once : request.committed = false)
    (settled : Option (List Combination))
    (respond : (question : signing.Question) → signing.Answer question) :
    (∃ t, (commitPlan id settled).evaluate respond (h.data k) =
        (t, .returned (.committed true)) ∧ Spends id request settled (h.data k) t) ∨
      ∃ e, (commitPlan id settled).evaluate respond (h.data k) = (h.data k, .failed e) ∧
        h.Refusal k id request settled e := by
  rw [evaluate_commitPlan_of_found respond _ id settled found once]
  cases advanced : (h.data k).advance (request.consumed settled) with
  | ok t => exact .inl ⟨_, rfl, spends_of_advance advanced⟩
  | error e => exact .inr ⟨e, rfl, refusal_of_advance found advanced⟩

end Schedule

namespace Sample

/-- A limit order that is built. -/
def schedule : Schedule where
  service := service
  start := session
  made := ⟨[⟨⟨.neo, 8⟩, ⟨.gas, 8⟩, false⟩], some signer, some [("neo", [1, 2]), ("gas", [7])], rfl⟩
  events
    | 0 => .operate (.limitOrders 1000 [limitRequest])
    | 1 => .turn 0
    | _ => .reply 0 world

end Sample

/-- The request of the sample schedule, which is there when the signer has answered three
times. -/
theorem Schedule.commit_exact_sample :
    ∃ request, (Sample.schedule.data 5).request? 0 = some request ∧ request.committed = false ∧
      ((∃ t, (commitPlan 0 none).evaluate world.answer (Sample.schedule.data 5) =
          (t, .returned (.committed true)) ∧
            Spends 0 request none (Sample.schedule.data 5) t) ∨
        ∃ e, (commitPlan 0 none).evaluate world.answer (Sample.schedule.data 5) =
          (Sample.schedule.data 5, .failed e) ∧ Sample.schedule.Refusal 5 0 request none e) := by
  obtain ⟨request, found, once⟩ := Option.map_eq_some_iff.1
    (show ((Sample.schedule.data 5).request? 0).map (·.committed) = some false by decide +kernel)
  exact ⟨request, found, once, Sample.schedule.commit_exact 5 found once none world.answer⟩

end Session

end SignedOrders
