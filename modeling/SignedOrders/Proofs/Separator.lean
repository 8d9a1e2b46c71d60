import SignedOrders.Proofs.Catalog

/-!
# Names with another separator

Markets are named with an underscore between their tickers, whatever separator names are
taken apart at.  A name with another separator between two tickers is not the name of a
market, since no ticker starts or ends another; and neither is its reversal, which has as
many underscores.  So a separator makes the two orientations of a market resolve exactly
when it is the underscore (`resolve_spelled`).
-/

namespace SignedOrders

/-! ## Tickers with something between them -/

namespace Asset

theorem eq_of_ticker_start {a b : Asset} (h : a.ticker.toList <+: b.ticker.toList) : a = b := by
  cases a <;> cases b <;> first | rfl | exact absurd h (by decide)

theorem eq_of_ticker_end {a b : Asset} (h : a.ticker.toList <:+ b.ticker.toList) : a = b := by
  cases a <;> cases b <;> first | rfl | exact absurd h (by decide)

variable {a b x y : Asset} {s t : List Char}

theorem eq_of_ticker_append (h : a.ticker.toList ++ s = x.ticker.toList ++ t) : a = x := by
  rcases List.prefix_or_prefix_of_prefix ⟨s, h⟩ ⟨t, rfl⟩ with le | le
  · exact eq_of_ticker_start le
  · exact (eq_of_ticker_start le).symm

theorem eq_of_append_ticker (h : s ++ b.ticker.toList = t ++ y.ticker.toList) : b = y := by
  rcases List.suffix_or_suffix_of_suffix ⟨s, h⟩ ⟨t, rfl⟩ with le | le
  · exact eq_of_ticker_end le
  · exact (eq_of_ticker_end le).symm

/-- Two tickers with something between them tell what they are and what is between. -/
theorem eq_of_ticker_append_ticker
    (h : a.ticker.toList ++ s ++ b.ticker.toList = x.ticker.toList ++ t ++ y.ticker.toList) :
    s = t := by
  cases eq_of_append_ticker h
  rw [List.append_assoc, List.append_assoc] at h
  cases eq_of_ticker_append h
  exact List.append_cancel_right (List.append_cancel_left h)

end Asset

namespace Market

variable {market : Market} {separator : String}

/-- The tickers of base and quote, joined by a separator. -/
def spelled (market : Market) (separator : String) : String :=
  market.base.asset.ticker ++ separator ++ market.quote.asset.ticker

theorem spelled_underscore (market : Market) : market.spelled "_" = market.name := rfl

theorem toList_spelled (market : Market) (separator : String) :
    (market.spelled separator).toList =
      market.base.asset.ticker.toList ++ separator.toList ++ market.quote.asset.ticker.toList := by
  rw [spelled, String.toList_append, String.toList_append]

theorem spelled_ne_name (other : separator ≠ "_") (market entry : Market) :
    entry.name ≠ market.spelled separator := by
  intro same
  rw [← spelled_underscore, ← String.toList_inj, toList_spelled, toList_spelled] at same
  exact other (String.toList_inj.1 (Asset.eq_of_ticker_append_ticker same).symm)

/-- All underscores of a spelling are those of its separator. -/
theorem count_spelled (market : Market) (separator : String) :
    (market.spelled separator).toList.count '_' = separator.toList.count '_' := by
  rw [toList_spelled, List.count_append, List.count_append,
    List.count_eq_zero.2 market.base.asset.underscore_not_mem_ticker,
    List.count_eq_zero.2 market.quote.asset.underscore_not_mem_ticker, Nat.zero_add, Nat.add_zero]

end Market

/-! ## Reversal at any separator -/

namespace Catalog

variable {separator : String} {markets : List Market}

/-- A reversal has each character as often as the name. -/
theorem count_reversedName (separator name : String) (c : Char) :
    (reversedName separator name).toList.count c = name.toList.count c := by
  conv_rhs => rw [← Text.join_split separator.toList name.toList]
  rw [reversedName, String.toList_ofList, Text.count_join, Text.count_join, List.length_reverse,
    (List.reverse_perm _).flatten.count_eq]

/-- Around a separator with an underscore the two tickers change places. -/
theorem reversedName_spelled (there : '_' ∈ separator.toList) (market : Market) :
    reversedName separator (market.spelled separator) = market.invert.spelled separator := by
  have pieces : (market.spelled separator).toList = Text.join separator.toList
      [market.base.asset.ticker.toList, market.quote.asset.ticker.toList] := by
    simp [Market.toList_spelled, Text.join]
  rw [reversedName, pieces, Text.split_join there (List.cons_ne_nil _ _)
    (by simp [Asset.underscore_not_mem_ticker]), ← String.toList_inj, String.toList_ofList,
    Market.toList_spelled]
  simp [Text.join, Market.invert]

/-- The reversal of a name with another separator is not the name of a market either. -/
theorem reversedName_spelled_ne_name (other : separator ≠ "_") (market entry : Market) :
    entry.name ≠ reversedName separator (market.spelled separator) := by
  intro same
  have once : separator.toList.count '_' = 1 := by
    rw [← market.count_spelled, ← count_reversedName separator, ← same,
      ← entry.spelled_underscore, entry.count_spelled]
    rfl
  have there : '_' ∈ separator.toList := List.count_pos_iff.1 (by omega)
  exact Market.spelled_ne_name other market.invert entry
    (same.trans (reversedName_spelled there market))

/-- With another separator between its tickers no market is known by its name. -/
theorem resolve_spelled_of_ne (nonempty : separator ≠ "") (other : separator ≠ "_")
    (markets : List Market) (market : Market) :
    resolve (ofList markets) separator (market.spelled separator) =
      fail (.unknownMarket (market.spelled separator)) := by
  have absent : Unlisted markets (market.spelled separator) :=
    fun entry _ => Market.spelled_ne_name other market entry
  have reversal : Unlisted markets (reversedName separator (market.spelled separator)) :=
    fun entry _ => reversedName_spelled_ne_name other market entry
  rw [resolve, get?_ofList_eq_none.2 absent, get?_ofList_eq_none.2 reversal]
  exact if_neg nonempty

/-- **Only the underscore separates.**  Of a market that is listed in one orientation alone
both orientations resolve with the underscore between their tickers, to the market and to its
inversion; with any other separator there neither is known. -/
theorem resolve_spelled {markets : List Market} {entry : Market} {separator : String}
    (listed : Listed markets entry.name entry) (single : Unlisted markets entry.invert.name)
    (nonempty : separator ≠ "") :
    resolve (ofList markets) separator (entry.spelled separator) =
        (if separator = "_" then .ok entry
          else fail (.unknownMarket (entry.spelled separator))) ∧
      resolve (ofList markets) separator (entry.invert.spelled separator) =
        if separator = "_" then .ok entry.invert
        else fail (.unknownMarket (entry.invert.spelled separator)) := by
  by_cases underscore : separator = "_"
  · subst underscore
    rw [if_pos rfl, if_pos rfl, Market.spelled_underscore, Market.spelled_underscore]
    refine ⟨resolve_of_listed listed, resolve_of_unlisted single ?_⟩
    rwa [entry.invert.reversedName_name, entry.invert_invert]
  · rw [if_neg underscore, if_neg underscore]
    exact ⟨resolve_spelled_of_ne nonempty underscore markets entry,
      resolve_spelled_of_ne nonempty underscore markets entry.invert⟩

/-- A market of eight places on both sides, listed alone. -/
def neoGas : Market := ⟨⟨.neo, 8⟩, ⟨.gas, 8⟩, false⟩

theorem listed_neoGas : Listed [neoGas] neoGas.name neoGas :=
  get?_ofList_eq_some.1 rfl

theorem unlisted_neoGas : Unlisted [neoGas] neoGas.invert.name :=
  get?_ofList_eq_none.1 rfl

theorem resolve_spelled_neo_gas :
    resolve (ofList [neoGas]) "_" "neo_gas" = .ok neoGas ∧
      resolve (ofList [neoGas]) "_" "gas_neo" = .ok neoGas.invert ∧
      resolve (ofList [neoGas]) "-" "neo-gas" = fail (.unknownMarket "neo-gas") :=
  have underscore := resolve_spelled listed_neoGas unlisted_neoGas (by decide : "_" ≠ "")
  have hyphen := resolve_spelled listed_neoGas unlisted_neoGas (by decide : "-" ≠ "")
  ⟨underscore.1, underscore.2, hyphen.1⟩

/-- With a hyphen for the separator neither orientation of the market is known. -/
theorem hyphen_resolves_neither :
    "-" ≠ "" ∧ Listed [neoGas] neoGas.name neoGas ∧ Unlisted [neoGas] neoGas.invert.name ∧
      resolve (ofList [neoGas]) "-" "neo-gas" = fail (.unknownMarket "neo-gas") ∧
      resolve (ofList [neoGas]) "-" "gas-neo" = fail (.unknownMarket "gas-neo") :=
  ⟨by decide, listed_neoGas, unlisted_neoGas,
    resolve_spelled_of_ne (by decide) (by decide) [neoGas] neoGas,
    resolve_spelled_of_ne (by decide) (by decide) [neoGas] neoGas.invert⟩

end Catalog

end SignedOrders
