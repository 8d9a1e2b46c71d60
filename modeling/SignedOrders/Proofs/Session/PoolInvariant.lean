import Mathlib.Algebra.Group.Int.Defs
import Mathlib.Data.List.Forall2
import Mathlib.Data.List.Nodup
import SignedOrders.Proofs.Session.Consumed
import SignedOrders.Proofs.Session.Schedule

/-!
# What the pools always are

Pools are checked when they are installed, and an advance checks the nonce with which a
drained pool goes on.  So in every schedule every pool is **sound**: it has each of its
nonces once, all of them from 0 to `2 ^ 32 - 2`, below the number that encodes the mark
`crosschain` (`Schedule.poolsKept`).
-/

namespace SignedOrders

namespace Pools

variable {pools after : Pools} {pool values rest : List Int} {consumed : List (String × List Int)}
  {asset : String}

/-- Every pool has each of its nonces once, and only nonces that a pool can hold. -/
def Sound (pools : Pools) : Prop :=
  ∀ entry ∈ pools.entries, entry.2.Nodup ∧ ∀ n ∈ entry.2, 0 ≤ n ∧ n ≤ 2 ^ 32 - 2

/-- Each pool has just the nonces that are given for its asset, each once and in the order
first seen. -/
def Holds (pools : Pools) (given : List (String × List Int)) : Prop :=
  List.Forall₂ (fun entry held => held.1 = entry.1 ∧ held.2.Nodup ∧
    (∀ n, n ∈ held.2 ↔ n ∈ entry.2) ∧
      held.2.Pairwise fun m n => entry.2.idxOf m < entry.2.idxOf n) given pools.entries

/-! ## Installed pools -/

theorem pairwise_firstSeen [DecidableEq α] (l : List α) :
    (firstSeen l).Pairwise fun a b => l.idxOf a < l.idxOf b := by
  induction l with
  | nil => exact .nil
  | cons a l ih =>
    have later {b : α} (hb : b ∈ (firstSeen l).filter (· ≠ a)) : a ≠ b := by
      have hne : b ≠ a := of_decide_eq_true (List.mem_filter.1 hb).2
      exact hne.symm
    refine List.pairwise_cons.2 ⟨fun b hb => ?_, ?_⟩
    · rw [List.idxOf_cons_self, List.idxOf_cons_ne _ (later hb)]
      omega
    · refine (ih.filter _).imp_of_mem fun hb hc before => ?_
      rw [List.idxOf_cons_ne _ (later hb), List.idxOf_cons_ne _ (later hc)]
      omega

theorem pooled_range {n m : Int} (h : Nonce.pooled n = .ok m) : n = m ∧ 0 ≤ m ∧ m ≤ 2 ^ 32 - 2 := by
  obtain ⟨rfl, low, high⟩ := Nonce.pooled_eq_ok_iff.1 h
  exact ⟨rfl, low, high⟩

theorem mapM_pooled (h : pool.mapM Nonce.pooled = .ok values) :
    values = pool ∧ ∀ n ∈ pool, 0 ≤ n ∧ n ≤ 2 ^ 32 - 2 := by
  induction mapM_eq_ok.1 h with
  | nil => exact ⟨rfl, fun _ hn => nomatch hn⟩
  | cons first later ih =>
    obtain ⟨rfl, range⟩ := pooled_range first
    obtain ⟨rfl, ranges⟩ := ih (mapM_eq_ok.2 later)
    exact ⟨rfl, List.forall_mem_cons.2 ⟨range, ranges⟩⟩

/-- Pools that are installed are sound and hold what is given. -/
theorem sound_of_install {given : List (String × List Int)} (h : install given = .ok pools) :
    pools.Sound ∧ pools.Holds given := by
  obtain ⟨entries, made, rfl⟩ := map_eq_ok.1 (show Except.map Pools.mk _ = .ok pools from h)
  have each := mapM_eq_ok.1 made
  clear made h
  unfold Sound Holds
  induction each with
  | nil => exact ⟨by rintro _ ⟨⟩, .nil⟩
  | @cons entry held entries rest first _ ih =>
    obtain ⟨values, checked, first⟩ := bind_eq_ok.1 first
    obtain ⟨rfl, range⟩ := mapM_pooled checked
    cases first
    constructor
    · refine List.forall_mem_cons.2 ⟨⟨nodup_firstSeen _, fun n hn => ?_⟩, ih.1⟩
      exact range n (mem_firstSeen.1 hn)
    · exact .cons ⟨rfl, nodup_firstSeen _, fun n => mem_firstSeen, pairwise_firstSeen _⟩ ih.2

/-! ## Pools that advance -/

theorem sound_of_remaining (nodup : pool.Nodup) (range : ∀ n ∈ pool, 0 ≤ n ∧ n ≤ 2 ^ 32 - 2)
    (h : remaining pool values = .ok rest) :
    rest.Nodup ∧ ∀ n ∈ rest, 0 ≤ n ∧ n ≤ 2 ^ 32 - 2 := by
  unfold remaining at h
  split at h
  · obtain ⟨n, hn, rfl⟩ := map_eq_ok.1 h
    obtain ⟨-, bounds⟩ := pooled_range hn
    refine ⟨List.nodup_singleton n, fun m hm => ?_⟩
    rw [List.mem_singleton.1 hm]
    exact bounds
  · cases h
    exact ⟨nodup.filter _, fun n hn => range n (List.mem_of_mem_filter hn)⟩

theorem Sound.put (sound : pools.Sound) (nodup : pool.Nodup)
    (range : ∀ n ∈ pool, 0 ≤ n ∧ n ≤ 2 ^ 32 - 2) : (pools.put asset pool).Sound := by
  intro entry hentry
  obtain ⟨old, hold, rfl⟩ := List.mem_map.1 hentry
  split
  · exact ⟨nodup, range⟩
  · exact sound old hold

theorem Sound.of_find? (sound : pools.Sound) (found : pools.find? asset = some pool) :
    pool.Nodup ∧ ∀ n ∈ pool, 0 ≤ n ∧ n ≤ 2 ^ 32 - 2 := by
  obtain ⟨before, later, entries, -⟩ := List.lookup_eq_some_iff.1 found
  exact sound (asset, pool) (entries ▸ List.mem_append_right before (.head later))

/-- **Consumption keeps pools sound.** -/
theorem Sound.consume (sound : pools.Sound) (h : pools.consume consumed = .ok after) :
    after.Sound := by
  induction consumed generalizing pools with
  | nil =>
    cases h
    exact sound
  | cons entry consumed ih =>
    obtain ⟨asset, values⟩ := entry
    rw [Pools.consume] at h
    split at h
    · exact ih sound h
    · obtain ⟨pool, found, h⟩ := bind_eq_ok.1 h
      obtain ⟨rest, left, h⟩ := bind_eq_ok.1 h
      obtain ⟨nodup, range⟩ := sound.of_find? (get_eq_ok.1 found).1
      obtain ⟨nodup', range'⟩ := sound_of_remaining nodup range left
      exact ih (sound.put nodup' range') h

/-- **No pool is emptied.** -/
theorem full_of_consume (h : pools.consume consumed = .ok after)
    (found : pools.find? asset = some pool) (full : pool ≠ []) :
    ∃ rest, after.find? asset = some rest ∧ rest ≠ [] := by
  induction consumed generalizing pools pool with
  | nil =>
    cases h
    exact ⟨pool, found, full⟩
  | cons entry consumed ih =>
    obtain ⟨other, values⟩ := entry
    rw [consume] at h
    split at h
    · exact ih h found full
    · rename_i hvalues
      obtain ⟨old, -, h⟩ := bind_eq_ok.1 h
      obtain ⟨rest, left, h⟩ := bind_eq_ok.1 h
      have rest_full : rest ≠ [] := by
        rcases (remaining_eq_ok hvalues).1 left with ⟨-, rest_full⟩ | ⟨-, _, -, -, rfl⟩
        · exact rest_full
        · exact List.cons_ne_nil _ _
      by_cases hit : asset = other
      · refine ih h ?_ rest_full
        rw [find?_put, if_pos hit, found, Option.map_some]
      · refine ih h ?_ full
        rw [find?_put, if_neg hit, found]

/-- Assets that consume nothing are passed over. -/
theorem consume_filter (pools : Pools) (consumed : List (String × List Int)) :
    pools.consume consumed = pools.consume (consumed.filter fun entry => entry.2 ≠ []) := by
  induction consumed generalizing pools with
  | nil => rfl
  | cons entry consumed ih =>
    obtain ⟨asset, values⟩ := entry
    by_cases hvalues : values = []
    · rw [consume, if_pos hvalues, List.filter_cons_of_neg (by simpa using hvalues), ih]
    · rw [consume, if_neg hvalues, List.filter_cons_of_pos (by simpa using hvalues), consume,
        if_neg hvalues]
      simp only [ih]

/-- **No consumed nonce is left** in the pool of its asset. -/
theorem not_mem_of_consume (h : pools.consume consumed = .ok after)
    (distinct : (consumed.map Prod.fst).Nodup) (hmem : (asset, values) ∈ consumed) {n : Int}
    (hn : n ∈ values) : ∃ rest, after.find? asset = some rest ∧ n ∉ rest := by
  have hvalues : values ≠ [] := List.ne_nil_of_mem hn
  rw [consume_filter] at h
  have distinct := distinct.sublist ((List.filter_sublist (l := consumed)
    (p := fun entry => entry.2 ≠ [])).map Prod.fst)
  have full (entry : String × List Int)
      (hentry : entry ∈ consumed.filter fun entry => entry.2 ≠ []) : entry.2 ≠ [] := by
    simpa using (List.mem_filter.1 hentry).2
  have hmem : (asset, values) ∈ consumed.filter fun entry => entry.2 ≠ [] :=
    List.mem_filter.2 ⟨hmem, by simpa using hvalues⟩
  obtain ⟨pool, rest, -, -, left, found⟩ := (find?_consume h distinct full).1 asset values hmem
  refine ⟨rest, found, fun hrest => ?_⟩
  rcases (mem_of_remaining hvalues left n).1 hrest with ⟨-, free⟩ | ⟨-, highest, hhighest, rfl⟩
  · exact free hn
  · have bound := (List.max?_eq_some_iff.1 hhighest).2 _ hn
    omega

end Pools

namespace Session

open Tasks Relation

variable {s t : Session} {consumed : List (String × List Int)}

/-- The pools are sound, if there are any. -/
def PoolsSound (s : Session) : Prop := ∀ pools, s.pools = some pools → pools.Sound

theorem PoolsSound.poolOf (sound : s.PoolsSound) (asset : String) :
    (s.poolOf asset).Nodup ∧ ∀ n ∈ s.poolOf asset, 0 ≤ n ∧ n ≤ 2 ^ 32 - 2 := by
  rw [poolOf_eq]
  cases pool : s.pool? asset with
  | none => exact ⟨List.nodup_nil, fun n hn => nomatch hn⟩
  | some values =>
    obtain ⟨pools, hpools, found⟩ := Option.bind_eq_some_iff.1 pool
    exact (sound pools hpools).of_find? found

theorem PoolsSound.range (sound : s.PoolsSound) {asset : String} {n : Int}
    (hn : n ∈ s.poolOf asset) : 0 ≤ n ∧ n ≤ 2 ^ 32 - 2 :=
  (sound.poolOf asset).2 n hn

/-- Every nonce of a pool that is found can be signed with. -/
theorem PoolsSound.drawable (sound : s.PoolsSound) {asset : String} {pool : List Int}
    (found : s.pool asset = .ok pool) : Combination.Drawable pool := by
  obtain ⟨rfl, full⟩ := pool_eq_ok.1 found
  refine ⟨full, fun n hn => ?_⟩
  obtain ⟨low, high⟩ := sound.range hn
  exact Nonce.pooled_eq_ok_iff.2 ⟨rfl, low, high⟩

theorem PoolsSound.advance (sound : s.PoolsSound) (h : s.advance consumed = .ok t) :
    t.PoolsSound := by
  rcases advance_cases h with ⟨pools, after, hpools, advanced, rfl⟩ | ⟨-, -, rfl⟩
  · rintro _ ⟨⟩
    exact (sound pools hpools).consume advanced
  · rintro _ ⟨⟩
    exact fun _ h => nomatch h

/-- **Every change keeps the pools sound.** -/
theorem Change.poolsSound {service : Service} {id : Nat} {operation : Operation}
    (change : Change service id operation s t) (sound : s.PoolsSound) : t.PoolsSound := by
  cases change with
  | pools installed =>
    rintro _ ⟨⟩
    exact (Pools.sound_of_install installed).1
  | advance advanced => exact sound.advance advanced
  | consume _ advanced => exact sound.advance advanced
  | _ => exact sound

theorem full_of_advance (h : s.advance consumed = .ok t) {asset : String}
    (full : s.poolOf asset ≠ []) : t.poolOf asset ≠ [] := by
  rcases advance_cases h with ⟨pools, after, hpools, advanced, rfl⟩ | ⟨hpools, -, -⟩
  · unfold poolOf at full ⊢
    rw [hpools, Option.bind_some] at full
    cases found : pools.find? asset with
    | none =>
      rw [found] at full
      exact absurd rfl full
    | some pool =>
      rw [found, Option.getD_some] at full
      obtain ⟨rest, found', rest_full⟩ := Pools.full_of_consume advanced found full
      rw [Option.bind_some, found']
      exact rest_full
  · unfold poolOf at full
    rw [hpools] at full
    exact absurd rfl full

theorem not_mem_of_advance (h : s.advance consumed = .ok t)
    (distinct : (consumed.map Prod.fst).Nodup) {asset : String} {values : List Int}
    (hmem : (asset, values) ∈ consumed) {n : Int} (hn : n ∈ values) : n ∉ t.poolOf asset := by
  rcases advance_cases h with ⟨pools, after, -, advanced, rfl⟩ | ⟨-, rfl, -⟩
  · obtain ⟨rest, found, free⟩ := Pools.not_mem_of_consume advanced distinct hmem hn
    unfold poolOf
    rw [Option.bind_some, found]
    exact free
  · cases hmem

/-- The pools of a session that is made are those that it is given. -/
theorem pools_of_new {markets : List Market} {signer : Option Signer}
    {nonces : Option (List (String × List Int))}
    (made : Session.new markets signer nonces = .ok s) :
    s.PoolsSound ∧ ∀ given, nonces = some given →
      ∃ pools, s.pools = some pools ∧ pools.Holds given := by
  obtain ⟨pools, installed, rfl⟩ := new_eq_ok.1 made
  cases nonces with
  | none =>
    cases installed
    exact ⟨by rintro _ ⟨⟩, by rintro _ ⟨⟩⟩
  | some given =>
    obtain ⟨held, checked, rfl⟩ :=
      map_eq_ok.1 (show Except.map some (Pools.install given) = .ok pools from installed)
    obtain ⟨sound, holds⟩ := Pools.sound_of_install checked
    constructor
    · rintro _ ⟨⟩
      exact sound
    · rintro _ ⟨⟩
      exact ⟨held, rfl, holds⟩

theorem poolsSound_start (h : Schedule) : h.start.PoolsSound := by
  obtain ⟨markets, signer, nonces, made⟩ := h.made
  exact (pools_of_new made).1

/-- To replace the pools either fails and changes nothing, or gives the pools that hold what is
given. -/
theorem evaluate_replacePools (service : Service) (id : Nat)
    (respond : (question : signing.Question) → signing.Answer question) (s : Session)
    (given : List (String × List Int)) :
    (∃ pools, ((Operation.replacePools given).plan service id).evaluate respond s =
        ({ s with pools := some pools }, .returned .done) ∧ pools.Holds given) ∨
      ∃ e, ((Operation.replacePools given).plan service id).evaluate respond s =
        (s, .failed e) := by
  rw [Operation.plan]
  cases installed : Pools.install given with
  | ok pools => exact .inl ⟨pools, rfl, (Pools.sound_of_install installed).2⟩
  | error e => exact .inr ⟨e, rfl⟩

/-! ## Pools in a schedule -/

/-- Nothing but a replacement of the pools empties one. -/
theorem Change.full {service : Service} {id : Nat} {operation : Operation} {s t : Session}
    {asset : String} (change : Change service id operation s t)
    (other : ∀ given, operation ≠ .replacePools given) (full : s.poolOf asset ≠ []) :
    t.poolOf asset ≠ [] := by
  cases change with
  | pools => exact absurd rfl (other _)
  | advance advanced => exact full_of_advance advanced full
  | consume _ advanced => exact full_of_advance advanced full
  | _ => exact full

theorem full_of_changes {service : Service} {id : Nat} {operation : Operation} {s t : Session}
    {asset : String} (changes : ReflTransGen (Change service id operation) s t)
    (other : ∀ given, operation ≠ .replacePools given) (full : s.poolOf asset ≠ []) :
    t.poolOf asset ≠ [] := by
  induction changes with
  | refl => exact full
  | tail _ last ih => exact last.full other ih

/-- A replacement of the pools changes nothing, or gives the pools that hold what is given. -/
theorem holds_of_changes {service : Service} {id : Nat} {given : List (String × List Int)}
    (changes : ReflTransGen (Change service id (.replacePools given)) s t) :
    t = s ∨ ∃ pools, t = { s with pools := some pools } ∧ pools.Holds given := by
  induction changes with
  | refl => exact .inl rfl
  | tail _ last ih =>
    cases last with
    | pools installed =>
      have holds := (Pools.sound_of_install installed).2
      rcases ih with rfl | ⟨_, rfl, -⟩
      · exact .inr ⟨_, rfl, holds⟩
      · exact .inr ⟨_, rfl, holds⟩

namespace Schedule

theorem poolsSound (h : Schedule) (k : Nat) : (h.data k).PoolsSound :=
  h.data_induction (poolsSound_start h) (fun _ _ _ _ change => change.poolsSound) k

/-- What holds of the pools, whatever operations run and fail in a schedule. -/
structure PoolsKept (h : Schedule) : Prop where
  /-- They are sound at all times. -/
  sound : ∀ k, (h.data k).PoolsSound
  /-- A session is made with pools that hold what is given, or it is not made. -/
  made : ∀ markets signer given s, Session.new markets signer (some given) = .ok s →
    ∃ pools, s.pools = some pools ∧ pools.Holds given
  /-- To replace the pools gives pools that hold what is given, or it fails and changes nothing. -/
  replaces : ∀ service id respond s given,
    (∃ pools, ((Operation.replacePools given).plan service id).evaluate respond s =
        ({ s with pools := some pools }, .returned .done) ∧ pools.Holds given) ∨
      ∃ e, ((Operation.replacePools given).plan service id).evaluate respond s = (s, .failed e)
  /-- So it is at each event in which a task runs that replaces them. -/
  replaced : ∀ k task given, (h.move k).task? = some task → h.Performs task (.replacePools given) →
    h.data (k + 1) = h.data k ∨
      ∃ pools, h.data (k + 1) = { h.data k with pools := some pools } ∧ pools.Holds given
  /-- No other event empties a pool. -/
  full : ∀ k, (∀ task given, (h.move k).task? = some task →
      ¬ h.Performs task (.replacePools given)) →
    ∀ asset, (h.data k).poolOf asset ≠ [] → (h.data (k + 1)).poolOf asset ≠ []
  /-- An advance empties no pool. -/
  advance_full : ∀ (s t : Session) consumed, s.advance consumed = .ok t →
    ∀ asset, s.poolOf asset ≠ [] → t.poolOf asset ≠ []
  /-- After an advance, no nonce that it has consumed is in the pool of its asset. -/
  advance_gone : ∀ (s t : Session) consumed, s.advance consumed = .ok t →
    (consumed.map Prod.fst).Nodup → ∀ asset values, (asset, values) ∈ consumed →
      ∀ n ∈ values, n ∉ t.poolOf asset

/-- **The pools are kept in every schedule.** -/
theorem poolsKept (h : Schedule) : h.PoolsKept := by
  constructor
  case sound => exact h.poolsSound
  case replaces => exact evaluate_replacePools
  case advance_full => exact fun s t consumed advanced asset => full_of_advance advanced
  case made =>
    intro markets signer given s made
    exact (pools_of_new made).2 given rfl
  case replaced =>
    intro k task given moves performs
    rcases h.data_succ k with same | ⟨id, operation, moves', performs', changes⟩
    · exact .inl same
    · cases moves.symm.trans moves'
      cases performs.unique performs'
      exact holds_of_changes changes
  case full =>
    intro k keeps asset full
    rcases h.data_succ k with same | ⟨task, operation, moves, performs, changes⟩
    · rwa [same]
    · refine full_of_changes changes (fun given is => ?_) full
      subst is
      exact keeps task given moves performs
  case advance_gone =>
    intro s t consumed advanced distinct asset values hmem n hn
    exact not_mem_of_advance advanced distinct hmem hn

end Schedule

end Session

end SignedOrders
