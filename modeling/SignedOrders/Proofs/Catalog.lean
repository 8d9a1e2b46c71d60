import Mathlib.Data.List.Induction
import SignedOrders.Catalog

/-!
# What a name stands for in a catalog

A name falls into tokens between its underscores, and its reversal has the same tokens in
the opposite order; reversing twice gives the name back (`reversedName_reversedName`), and
the name of a market reversed is that of its inversion.  In the catalog of some markets a
name has the last market of that name (`get?_ofList_eq_some`).

From the two follows all that `resolve` does with a name (`resolve_exact`): it fails
exactly where neither the name nor its reversal is a name of the catalog, and otherwise
gives a market of the name that was asked for.
-/

namespace SignedOrders

/-! ## Tokens of a name -/

/-- The parts of a name between its underscores. -/
structure Tokens (name : String) (tokens : List String) : Prop where
  nonempty : tokens ≠ []
  clean : ∀ token ∈ tokens, '_' ∉ token.toList
  joined : "_".intercalate tokens = name

namespace Tokens

variable {name : String} {tokens : List String}

theorem toList_eq (h : Tokens name tokens) :
    name.toList = Text.join ['_'] (tokens.map String.toList) := by
  rw [← h.joined, String.toList_intercalate]
  rfl

theorem split_eq (h : Tokens name tokens) :
    Text.split ['_'] name.toList = tokens.map String.toList := by
  rw [h.toList_eq]
  refine Text.split_join (List.mem_singleton_self '_') (by simpa using h.nonempty) ?_
  simpa using h.clean

/-- Every name has tokens. -/
theorem exists_tokens (name : String) : ∃ tokens, Tokens name tokens := by
  refine ⟨(Text.split ['_'] name.toList).map String.ofList, ?_, ?_, ?_⟩
  · simpa using Text.split_ne_nil ['_'] name.toList
  · intro token ht
    obtain ⟨piece, hp, rfl⟩ := List.mem_map.1 ht
    rw [String.toList_ofList]
    exact Text.not_mem_of_mem_split hp
  · rw [← String.toList_inj, String.toList_intercalate, List.map_map]
    simp only [Function.comp_def, String.toList_ofList, List.map_id']
    exact Text.join_split ['_'] name.toList

/-- The reversal of a name has its tokens in the opposite order. -/
theorem reversed (h : Tokens name tokens) :
    Tokens (Catalog.reversedName "_" name) tokens.reverse where
  nonempty := by simpa using h.nonempty
  clean token ht := h.clean token (List.mem_reverse.1 ht)
  joined := by
    rw [← String.toList_inj, String.toList_intercalate, List.map_reverse, ← h.split_eq,
      Catalog.reversedName]
    exact String.toList_ofList.symm

end Tokens

/-- Two names with the same tokens are the same. -/
theorem Tokens.name_eq {name other : String} {tokens : List String} (h : Tokens name tokens)
    (same : Tokens other tokens) : name = other := h.joined.symm.trans same.joined

@[simp] theorem Catalog.reversedName_reversedName (name : String) :
    reversedName "_" (reversedName "_" name) = name := by
  obtain ⟨tokens, h⟩ := Tokens.exists_tokens name
  have twice := h.reversed.reversed
  rw [List.reverse_reverse] at twice
  exact twice.name_eq h

theorem Asset.underscore_not_mem_ticker (asset : Asset) : '_' ∉ asset.ticker.toList := by
  cases asset <;> decide

theorem Market.tokens_name (market : Market) :
    Tokens market.name [market.base.asset.ticker, market.quote.asset.ticker] where
  nonempty := List.cons_ne_nil _ _
  clean := by simp [Asset.underscore_not_mem_ticker]
  joined := by
    rw [← String.toList_inj, String.toList_intercalate]
    simp [Market.name, List.intercalate]

/-- **The name of a market, reversed, is the name of its inversion.** -/
theorem Market.reversedName_name (market : Market) :
    Catalog.reversedName "_" market.name = market.invert.name :=
  market.tokens_name.reversed.name_eq market.invert.tokens_name

/-! ## The last market of a name -/

/-- `entry` is the last of some markets that has a given name. -/
def Listed (markets : List Market) (name : String) (entry : Market) : Prop :=
  ∃ before after, markets = before ++ entry :: after ∧ entry.name = name ∧
    ∀ market ∈ after, market.name ≠ name

/-- None of some markets has a given name. -/
def Unlisted (markets : List Market) (name : String) : Prop :=
  ∀ market ∈ markets, market.name ≠ name

section

variable {markets : List Market} {name : String} {market entry : Market}

theorem unlisted_concat :
    Unlisted (markets ++ [market]) name ↔ Unlisted markets name ∧ market.name ≠ name := by
  simp [Unlisted, or_imp, forall_and]

theorem listed_concat :
    Listed (markets ++ [market]) name entry ↔
      market.name = name ∧ market = entry ∨ market.name ≠ name ∧ Listed markets name entry := by
  constructor
  · rintro ⟨before, after, parts, named, last⟩
    cases after using List.reverseRecOn with
    | nil =>
      obtain ⟨-, rfl⟩ := List.append_inj' parts rfl |>.imp_right List.singleton_inj.1
      exact .inl ⟨named, rfl⟩
    | append_singleton after final =>
      rw [← List.cons_append, ← List.append_assoc] at parts
      obtain ⟨rfl, same⟩ := List.append_inj' parts rfl
      cases List.singleton_inj.1 same
      exact .inr ⟨last _ (by simp), before, after, rfl, named, fun m hm => last m (by simp [hm])⟩
  · rintro (⟨named, rfl⟩ | ⟨other, before, after, rfl, named, last⟩)
    · exact ⟨markets, [], rfl, named, by simp⟩
    · refine ⟨before, after ++ [market], by simp, named, ?_⟩
      rintro m hm
      rcases List.mem_append.1 hm with hm | hm
      · exact last m hm
      · cases List.mem_singleton.1 hm
        exact other

theorem Listed.name_eq (h : Listed markets name entry) : entry.name = name := by
  obtain ⟨_, _, -, named, -⟩ := h
  exact named

end

namespace Catalog

variable {markets : List Market} {name : String} {market entry : Market}

theorem get?_insert (catalog : Catalog) (market : Market) (name : String) :
    (catalog.insert market).get? name =
      if market.name = name then some market else catalog.get? name := by
  obtain ⟨entries⟩ := catalog
  unfold insert get?
  split
  · next there =>
    -- the market takes the place of an entry, whose name stays
    have keys : ((fun e : String × Market => e.1 == name) ∘ fun e =>
        if e.1 == market.name then (e.1, market) else e) = fun e => e.1 == name := by
      funext e
      dsimp only [Function.comp_apply]
      split <;> rfl
    rw [List.find?_map, keys]
    cases found : entries.find? fun e => e.1 == name with
    | none =>
      obtain ⟨e, he, same⟩ := List.any_eq_true.1 there
      have other : e.1 ≠ name := by simpa using List.find?_eq_none.1 found e he
      rw [if_neg fun h => other ((beq_iff_eq.1 same).trans h)]
      rfl
    | some e =>
      cases (show e.1 = name by simpa using List.find?_some found)
      by_cases same : market.name = e.1
      · simp [same]
      · simp [same, Ne.symm same]
  · next absent =>
    rw [List.find?_append]
    by_cases same : market.name = name
    · subst same
      rw [List.any_eq_true, not_exists] at absent
      have none : entries.find? (fun e => e.1 == market.name) = none :=
        List.find?_eq_none.2 fun e he same => absent e ⟨he, same⟩
      simp [none]
    · simp [same]

theorem ofList_concat (markets : List Market) (market : Market) :
    ofList (markets ++ [market]) = (ofList markets).insert market := by
  rw [ofList, List.foldl_append]
  rfl

theorem get?_ofList_concat (markets : List Market) (market : Market) (name : String) :
    (ofList (markets ++ [market])).get? name =
      if market.name = name then some market else (ofList markets).get? name := by
  rw [ofList_concat, get?_insert]

theorem get?_ofList_eq_none : (ofList markets).get? name = none ↔ Unlisted markets name := by
  induction markets using List.reverseRecOn with
  | nil => simp [ofList, get?, Unlisted]
  | append_singleton markets market ih =>
    rw [get?_ofList_concat, unlisted_concat, ← ih]
    by_cases same : market.name = name <;> simp [same]

/-- **Among markets of one name the last counts.** -/
theorem get?_ofList_eq_some :
    (ofList markets).get? name = some entry ↔ Listed markets name entry := by
  induction markets using List.reverseRecOn with
  | nil => simp [ofList, get?, Listed]
  | append_singleton markets market ih =>
    rw [get?_ofList_concat, listed_concat, ← ih]
    by_cases same : market.name = name <;> simp [same]

/-! ## Resolution -/

/-- What resolving gives for a name and its reversal, in the catalog of some markets. -/
structure Resolution (markets : List Market) (name reversal : String) : Prop where
  unknown_iff : resolve (ofList markets) "_" name = fail (.unknownMarket name) ↔
    Unlisted markets name ∧ Unlisted markets reversal
  known : ¬ (Unlisted markets name ∧ Unlisted markets reversal) →
    ∃ market, resolve (ofList markets) "_" name = .ok market ∧ market.name = name
  listed : ∀ entry, Listed markets name entry → resolve (ofList markets) "_" name = .ok entry
  inverted : ∀ entry, Unlisted markets name → Listed markets reversal entry →
    resolve (ofList markets) "_" name = .ok ⟨entry.quote, entry.base, !entry.inverted⟩
  mirrored : ∀ entry, Listed markets name entry → Unlisted markets reversal →
    ∃ mirror, resolve (ofList markets) "_" reversal = .ok mirror ∧
      mirror = ⟨entry.quote, entry.base, !entry.inverted⟩ ∧ mirror.invert = entry

theorem resolve_of_listed (h : Listed markets name entry) :
    resolve (ofList markets) "_" name = .ok entry := by
  rw [resolve, get?_ofList_eq_some.2 h]

theorem resolve_of_unlisted (absent : Unlisted markets name)
    (h : Listed markets (reversedName "_" name) entry) :
    resolve (ofList markets) "_" name = .ok entry.invert := by
  rw [resolve, get?_ofList_eq_none.2 absent, get?_ofList_eq_some.2 h]
  rfl

theorem resolve_unknown (absent : Unlisted markets name)
    (reversal : Unlisted markets (reversedName "_" name)) :
    resolve (ofList markets) "_" name = fail (.unknownMarket name) := by
  rw [resolve, get?_ofList_eq_none.2 absent, get?_ofList_eq_none.2 reversal]
  rfl

theorem exists_listed (h : ¬ Unlisted markets name) : ∃ entry, Listed markets name entry := by
  rw [← get?_ofList_eq_none, ← ne_eq, Option.ne_none_iff_exists'] at h
  exact h.imp fun _ => get?_ofList_eq_some.1

/-- Where one of the two orientations is listed there is a market, of the name asked for. -/
theorem exists_resolve
    (known : ¬ (Unlisted markets name ∧ Unlisted markets (reversedName "_" name))) :
    ∃ market, resolve (ofList markets) "_" name = .ok market ∧ market.name = name := by
  by_cases absent : Unlisted markets name
  · obtain ⟨entry, h⟩ := exists_listed fun reversal => known ⟨absent, reversal⟩
    refine ⟨_, resolve_of_unlisted absent h, ?_⟩
    rw [← entry.reversedName_name, Listed.name_eq h, reversedName_reversedName]
  · obtain ⟨entry, h⟩ := exists_listed absent
    exact ⟨entry, resolve_of_listed h, h.name_eq⟩

/-- **What a name is resolved to.**  A name has tokens, and its reversal has the same
tokens in the opposite order.  In the catalog of any markets the name is unknown exactly
where neither of the two is the name of a market; otherwise it stands for a market of just
that name, the last one listed, or the inversion of the last one listed for the
reversal. -/
theorem resolve_exact (markets : List Market) (name : String) :
    ∃ tokens reversal, Tokens name tokens ∧ Tokens reversal tokens.reverse ∧
      Resolution markets name reversal := by
  obtain ⟨tokens, h⟩ := Tokens.exists_tokens name
  refine ⟨tokens, reversedName "_" name, h, h.reversed, ?_⟩
  constructor
  case unknown_iff =>
    refine ⟨fun unknown => ?_, fun ⟨absent, reversal⟩ => resolve_unknown absent reversal⟩
    by_contra known
    obtain ⟨market, found, -⟩ := exists_resolve known
    rw [found] at unknown
    cases unknown
  case known => exact exists_resolve
  case listed => exact fun entry => resolve_of_listed
  case inverted => exact fun entry => resolve_of_unlisted
  case mirrored =>
    intro entry there absent
    refine ⟨entry.invert, ?_, rfl, entry.invert_invert⟩
    exact resolve_of_unlisted absent (by rwa [reversedName_reversedName])

end Catalog

end SignedOrders
