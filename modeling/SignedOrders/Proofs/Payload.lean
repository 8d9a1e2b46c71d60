import SignedOrders.Proofs.Json.Limits
import SignedOrders.Proofs.Record

/-!
# Payloads as plain values

The fields of every record of a posting have different names under both namings, and
all that is written of a posting is plain, so its text can be read back.

No posting is nested deeper than four levels, down to the signatures of fill orders, and
its integers are its time and the nonces.
-/

namespace SignedOrders

open Json (Plain)

attribute [simp] Json.Plain.bool Json.Plain.int Json.Plain.str

/-! ## The names of fields are different -/

theorem CurrencyAmount.distinct (naming : Naming) (amount currency : Option Json) :
    (keys naming [("amount", amount), ("currency", currency)]).Nodup := by
  cases naming <;> simp only [keys, List.map_cons, List.map_nil] <;> decide

theorem CurrencyPrice.distinct (naming : Naming) (amount a b : Option Json) :
    (keys naming [("amount", amount), ("currency_a", a), ("currency_b", b)]).Nodup := by
  cases naming <;> simp only [keys, List.map_cons, List.map_nil] <;> decide

theorem BlockchainSignature.distinct (naming : Naming) (chain first last key text : Option Json) :
    (keys naming [("blockchain", chain), ("nonce_from", first), ("nonce_to", last),
      ("public_key", key), ("signature", text)]).Nodup := by
  cases naming <;> simp only [keys, List.map_cons, List.map_nil] <;> decide

theorem RequestSignature.distinct (naming : Naming) (digest key : Option Json) :
    (keys naming [("signed_digest", digest), ("public_key", key)]).Nodup := by
  cases naming <;> simp only [keys, List.map_cons, List.map_nil] <;> decide

theorem LimitPayload.distinct (naming : Naming) (p : LimitPayload) :
    (keys naming (p.fields naming)).Nodup := by
  cases naming <;> simp only [keys, LimitPayload.fields, List.map_cons, List.map_nil] <;> decide

theorem MarketPayload.distinct (naming : Naming) (p : MarketPayload) :
    (keys naming (p.fields naming)).Nodup := by
  cases naming <;> simp only [keys, MarketPayload.fields, List.map_cons, List.map_nil] <;> decide

theorem Posting.distinct (naming : Naming) (payload signature affiliate : Option Json) :
    (keys naming [("payload", payload), ("signature", signature),
      ("affiliate", affiliate)]).Nodup := by
  cases naming <;> simp only [keys, List.map_cons, List.map_nil] <;> decide

/-! ## Values are plain -/

section Plain

variable (naming : Naming)

@[simp] theorem CurrencyAmount.plain (a : CurrencyAmount) : Plain (toJson naming a) :=
  plain_record (CurrencyAmount.distinct ..) (by simp)

@[simp] theorem CurrencyPrice.plain (p : CurrencyPrice) : Plain (toJson naming p) :=
  plain_record (CurrencyPrice.distinct ..) (by simp)

@[simp] theorem BlockchainSignature.plain (s : BlockchainSignature) : Plain (toJson naming s) :=
  plain_record (BlockchainSignature.distinct ..) (by simp)

@[simp] theorem RequestSignature.plain (s : RequestSignature) : Plain (toJson naming s) :=
  plain_record (RequestSignature.distinct ..) (by simp)

@[simp] theorem LimitPayload.plain (p : LimitPayload) : Plain (toJson naming p) :=
  plain_record (LimitPayload.distinct naming p) (by simp [LimitPayload.fields, Plain.arr])

@[simp] theorem MarketPayload.plain (p : MarketPayload) : Plain (toJson naming p) :=
  plain_record (MarketPayload.distinct naming p) (by simp [MarketPayload.fields, Plain.arr])

/-- What is posted is plain if its payload is. -/
theorem Posting.plain [Wire π] (posting : Posting π) (h : Plain (toJson naming posting.payload)) :
    Plain (toJson naming posting) :=
  plain_record (Posting.distinct ..) (by simp [h])

end Plain

/-! ## Nesting and integers -/

/-- The integers of a signature: its nonces. -/
def BlockchainSignature.integers (s : BlockchainSignature) : List Int :=
  s.nonceFrom.toList ++ s.nonceTo.toList

/-- The integers of the payload of a limit order: nonces and the time. -/
def LimitPayload.integers (p : LimitPayload) : List Int :=
  [p.nonceFrom, p.nonceTo, p.nonceOrder, p.timestamp] ++
    p.blockchainSignatures.flatMap (·.integers)

/-- The integers of the payload of a market order: nonces and the time. -/
def MarketPayload.integers (p : MarketPayload) : List Int :=
  p.nonceFrom.toList ++ p.nonceTo.toList ++ [p.nonceOrder, p.timestamp] ++
    p.blockchainSignatures.flatMap (·.integers)

section Limits

variable (naming : Naming)

/-- A record is nested one level deeper than its values. -/
theorem depth_record_le {fields : List (String × Option Json)} {levels : Nat}
    (h : ∀ field ∈ fields, ∀ v ∈ field.2, v.depth ≤ levels) :
    (record naming fields).depth ≤ levels + 1 := by
  refine Json.depth_obj_le_iff.2 ?_
  rintro ⟨key, v⟩ hv
  obtain ⟨name, hf, -⟩ := mem_present.1 hv
  exact h _ hf v rfl

theorem CurrencyAmount.depth_le (a : CurrencyAmount) : (toJson naming a).depth ≤ 1 :=
  depth_record_le naming (by simp)

theorem CurrencyPrice.depth_le (p : CurrencyPrice) : (toJson naming p).depth ≤ 1 :=
  depth_record_le naming (by simp)

theorem BlockchainSignature.depth_le (s : BlockchainSignature) : (toJson naming s).depth ≤ 1 :=
  depth_record_le naming (by simp)

theorem RequestSignature.depth_le (s : RequestSignature) : (toJson naming s).depth ≤ 1 :=
  depth_record_le naming (by simp)

theorem depth_signatures_le (signatures : List BlockchainSignature) :
    (Json.arr (signatures.map (toJson naming))).depth ≤ 2 :=
  Json.depth_arr_le_iff.2 (List.forall_mem_map.2 fun s _ => s.depth_le naming)

theorem LimitPayload.depth_le (p : LimitPayload) : (toJson naming p).depth ≤ 3 := by
  have amount := Nat.le_succ_of_le (p.amount.depth_le naming)
  have price := Nat.le_succ_of_le (p.limitPrice.depth_le naming)
  have signatures := depth_signatures_le naming p.blockchainSignatures
  exact depth_record_le naming (by simp [LimitPayload.fields, amount, price, signatures])

theorem MarketPayload.depth_le (p : MarketPayload) : (toJson naming p).depth ≤ 3 := by
  have amount := Nat.le_succ_of_le (p.amount.depth_le naming)
  have signatures := depth_signatures_le naming p.blockchainSignatures
  exact depth_record_le naming (by simp [MarketPayload.fields, amount, signatures])

theorem Posting.depth_le [Wire π] (posting : Posting π)
    (h : (toJson naming posting.payload).depth ≤ 3) : (toJson naming posting).depth ≤ 4 := by
  have signature := Nat.le_trans (posting.signature.depth_le naming) (by decide : 1 ≤ 3)
  exact depth_record_le naming (by simp [h, signature])

/-- The integers of a record are those of its values. -/
theorem integers_record (fields : List (String × Option Json)) :
    (record naming fields).integers =
      fields.flatMap fun field => field.2.toList.flatMap Json.integers := by
  rw [record_eq, Json.integers]
  induction fields with
  | nil => rfl
  | cons field rest ih =>
    obtain ⟨name, value⟩ := field
    cases value with
    | none => exact ih
    | some v =>
      rw [present_cons_some, Json.fieldIntegers, ih, List.flatMap_cons]
      exact congrArg (· ++ _) (List.flatMap_singleton ..).symm

@[simp] theorem flatMap_integers_str? (s : Option String) :
    (s.map Json.str).toList.flatMap Json.integers = [] := by
  cases s <;> rfl

@[simp] theorem flatMap_integers_int? (n : Option Int) :
    (n.map Json.int).toList.flatMap Json.integers = n.toList := by
  cases n <;> rfl

@[simp] theorem CurrencyAmount.integers_eq (a : CurrencyAmount) :
    (toJson naming a).integers = [] := rfl

@[simp] theorem CurrencyPrice.integers_eq (p : CurrencyPrice) :
    (toJson naming p).integers = [] := rfl

@[simp] theorem RequestSignature.integers_eq (s : RequestSignature) :
    (toJson naming s).integers = [] := rfl

@[simp] theorem BlockchainSignature.integers_eq (s : BlockchainSignature) :
    (toJson naming s).integers = s.integers := by
  refine (integers_record naming _).trans ?_
  simp [integers]

@[simp] theorem integers_signatures (signatures : List BlockchainSignature) :
    (Json.arr (signatures.map (toJson naming))).integers = signatures.flatMap (·.integers) := by
  rw [Json.integers]
  induction signatures with
  | nil => rfl
  | cons s rest ih => rw [List.map_cons, Json.itemIntegers, s.integers_eq, ih, List.flatMap_cons]

@[simp] theorem LimitPayload.integers_eq (p : LimitPayload) :
    (toJson naming p).integers = p.integers := by
  refine (integers_record naming _).trans ?_
  simp [LimitPayload.fields, integers]

@[simp] theorem MarketPayload.integers_eq (p : MarketPayload) :
    (toJson naming p).integers = p.integers := by
  refine (integers_record naming _).trans ?_
  simp [MarketPayload.fields, integers]

/-- What is posted has the integers of the payload. -/
theorem Posting.integers_eq [Wire π] (posting : Posting π) :
    (toJson naming posting).integers = (toJson naming posting.payload).integers := by
  refine (integers_record naming _).trans ?_
  simp

end Limits

end SignedOrders
