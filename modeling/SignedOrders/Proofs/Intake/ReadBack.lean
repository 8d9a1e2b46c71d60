import SignedOrders.Canonical
import SignedOrders.Intake.Payload
import SignedOrders.Proofs.Json.Alike
import SignedOrders.Proofs.Payload

/-!
# Payloads are read back

What is written of a posting is read back as that posting, in whatever form it comes: under either
naming, with its fields in any order at any depth, and with fields that have no value left
out or written as null (`posting_read_back`).  So all these forms have one canonical text.

A **form** of a value is a JSON value that is alike to what is written of it, where nulls are
allowed under the keys of optional fields.  A check reads a value if it accepts each of its forms
as that value (`Reads`).  Single values and lists are read, and a record is read if all of its
fields are.

A field is looked for under two names.  The one of the other naming does not mislead, since no name
of a field under one naming is the name of another field under the other (`key_unmistakable`).
-/

namespace SignedOrders.Intake

open Json (Alike)

/-! ## Names of fields -/

/-- The names of the fields of all records of a posting. -/
def vocabulary : List String :=
  ["payload", "signature", "affiliate", "allow_taker", "buy_or_sell", "cancel_at",
    "cancellation_policy", "client_order_id", "market_name", "amount", "nonce_from", "nonce_to",
    "nonce_order", "timestamp", "limit_price", signaturesField, "currency", "currency_a",
    "currency_b", "blockchain", "public_key", "signed_digest"]

/-- The keys of fields that may have no value. -/
def blanks (naming : Naming) : List String :=
  ["cancel_at", "client_order_id", "nonce_from", "nonce_to", "affiliate"].map naming.key

/-- A name under the other naming is no name of another field. -/
theorem key_unmistakable (naming other : Naming) :
    ∀ name ∈ vocabulary, other.key name = naming.key name ∨
      other.key name ∉ vocabulary.map naming.key := by
  cases naming <;> cases other <;> decide

theorem blanks_subset (naming : Naming) : blanks naming ⊆ vocabulary.map naming.key :=
  List.map_subset _ (by decide)

/-! ## Forms -/

/-- `form` says what is written of a value, perhaps with nulls for fields that have none. -/
def Form (naming : Naming) (written form : Json) : Prop := Alike (blanks naming) written form

/-- The check accepts every form of what is written as `a`. -/
def Reads (naming : Naming) (check : Json → Checked α) (written : Json) (a : α) : Prop :=
  ∀ form, Form naming written form → check form = .accepted a

/-- What an object gives of a record: its fields under their names, no others, and nothing or
nulls for those that have no value. -/
structure Gives (naming : Naming) (fields : List (String × Option Json)) (given : Json.Fields) :
    Prop where
  value : ∀ name v, (name, some v) ∈ fields →
    ∃ form, Json.Fields.get? given (naming.key name) = some form ∧ Form naming v form
  blank : ∀ name, (name, none) ∈ fields → ∀ form,
    Json.Fields.get? given (naming.key name) = some form → form = .null
  known : ∀ key form, Json.Fields.get? given key = some form → key ∈ vocabulary.map naming.key

section Record

variable {naming : Naming} {fields : List (String × Option Json)} {given : Json.Fields}

theorem gives_of_form (distinct : (keys naming fields).Nodup)
    (names : fields.map Prod.fst ⊆ vocabulary) {form : Json}
    (h : Form naming (record naming fields) form) :
    ∃ given, form = .obj given ∧ Gives naming fields given := by
  rw [Form, record_eq] at h
  cases h with
  | @obj _ given kept blanks each =>
    refine ⟨given, rfl, ⟨fun name v hv => ?_, fun name hv form found => ?_,
      fun key form found => ?_⟩⟩
    · have written := get?_present distinct hv
      obtain ⟨form, found⟩ := Option.isSome_iff_exists.1 (kept _ (by rw [written]; rfl))
      exact ⟨form, found, each _ v form written found⟩
    · exact (blanks _ form found (get?_present distinct hv)).2
    · cases written : (present naming fields).get? key with
      | none => exact blanks_subset naming (blanks key form found written).1
      | some v =>
        obtain ⟨name, hv, rfl⟩ := mem_present.1 (Json.Fields.mem_of_get?_eq_some written)
        exact List.mem_map_of_mem (names (List.mem_map_of_mem hv))

/-- A field is looked for where it is. -/
theorem Gives.get?_givenKey (h : Gives naming fields given) {name : String}
    (known : name ∈ vocabulary) :
    Json.Fields.get? given ((givenKey? given name).getD (Naming.wire.key name)) =
      Json.Fields.get? given (naming.key name) := by
  have elsewhere (other : Naming) (differs : other.key name ≠ naming.key name) :
      Json.Fields.get? given (other.key name) = none := by
    rw [Option.eq_none_iff_forall_ne_some]
    intro form found
    exact (key_unmistakable naming other name known).resolve_left differs (h.known _ form found)
  have spelled (other : Naming) (found : (Json.Fields.get? given (other.key name)).isSome) :
      other.key name = naming.key name := by
    by_contra differs
    rw [elsewhere other differs] at found
    cases found
  rw [givenKey?]
  split
  · next onWire => exact congrArg _ (spelled .wire onWire)
  · next offWire =>
    rw [Option.not_isSome_iff_eq_none] at offWire
    split
    · next here => exact congrArg _ (spelled .canonical here)
    · next missing =>
      rw [Option.not_isSome_iff_eq_none] at missing
      cases naming with
      | wire => rfl
      | canonical => exact offWire.trans missing.symm

section Member

variable {name : String} (h : Gives naming fields given) (known : name ∈ vocabulary)
include h known

theorem Gives.member {check : Json → Checked α} {v : Json} {a : α} (hv : (name, some v) ∈ fields)
    (reads : Reads naming check v a) : member given name check = .accepted a := by
  obtain ⟨form, found, hform⟩ := h.value name v hv
  rw [Intake.member, required, h.get?_givenKey known, found]
  simp only [reads form hform, Checked.inside]

theorem Gives.memberOr {check : Json → Checked α} {v : Json} {a : α} (default : α)
    (hv : (name, some v) ∈ fields) (reads : Reads naming check v a) :
    memberOr given name default check = .accepted a := by
  obtain ⟨form, found, hform⟩ := h.value name v hv
  rw [Intake.memberOr, optional, h.get?_givenKey known, found]
  simp only [reads form hform, Checked.inside]

/-- An optional field, which may be missing or null if it has no value. -/
theorem Gives.memberOr_nullable {check : Json → Checked α} {write : α → Json} (value : Option α)
    (hv : (name, value.map write) ∈ fields)
    (reads : ∀ a, Reads naming (nullable check) (write a) (some a)) :
    Intake.memberOr given name none (nullable check) = .accepted value := by
  cases value with
  | some a => exact h.memberOr known none hv (reads a)
  | none =>
    rw [Intake.memberOr, optional, h.get?_givenKey known]
    cases found : Json.Fields.get? given (naming.key name) with
    | none => rfl
    | some form =>
      rw [h.blank name hv form found]
      rfl

end Member

/-- **A record is read** if its fields are. -/
theorem reads_record (distinct : (keys naming fields).Nodup)
    (names : fields.map Prod.fst ⊆ vocabulary) {check : Json.Fields → Checked α} {a : α}
    (reads : ∀ given, Gives naming fields given → check given = .accepted a) :
    Reads naming (object check) (record naming fields) a := by
  intro form hform
  obtain ⟨given, rfl, gives⟩ := gives_of_form distinct names hform
  exact reads given gives

end Record

/-! ## Single values and lists -/

section Values

variable {naming : Naming}

/-- A text has no other form. -/
theorem reads_str {check : Json → Checked α} {s : String} {a : α}
    (accepts : check (.str s) = .accepted a) : Reads naming check (.str s) a := by
  intro form h
  cases h
  exact accepts

/-- An integer has no other form. -/
theorem reads_int {check : Json → Checked α} {n : Int} {a : α}
    (accepts : check (.int n) = .accepted a) : Reads naming check (.int n) a := by
  intro form h
  cases h
  exact accepts

theorem reads_text (s : String) : Reads naming text (.str s) s := reads_str rfl

theorem reads_nullable_text (s : String) : Reads naming (nullable text) (.str s) (some s) :=
  reads_str rfl

theorem reads_integer (n : Int) : Reads naming integer (.int n) n := reads_int rfl

theorem reads_nullable_integer (n : Int) : Reads naming (nullable integer) (.int n) (some n) :=
  reads_int rfl

theorem reads_flag (b : Bool) : Reads naming flag (.bool b) b := by
  intro form h
  cases h
  rfl

theorem reads_direction (d : Direction) :
    Reads naming (named Direction.ofName?) (.str d.name) d :=
  reads_str (by rw [named, Direction.ofName?_name])

theorem reads_policy (k : PolicyKind) : Reads naming (named PolicyKind.ofName?) (.str k.name) k :=
  reads_str (by rw [named, PolicyKind.ofName?_name])

theorem itemsFrom_of_reads {check : Json → Checked α} {write : α → Json}
    (reads : ∀ a, Reads naming check (write a) a) (values : List α) (items : List Json)
    (length : (values.map write).length = items.length)
    (each : ∀ (i : Nat) (v form : Json), (values.map write)[i]? = some v →
      items[i]? = some form → Form naming v form) (index : Nat) :
    itemsFrom check index items = .accepted values := by
  induction values generalizing items index with
  | nil =>
    cases items with
    | nil => rfl
    | cons _ _ => cases length
  | cons a values ih =>
    cases items with
    | nil => cases length
    | cons form items =>
      have first := reads a form (each 0 _ _ rfl rfl)
      have rest := ih items (Nat.succ.inj length)
        (fun i v w hv hw => each (i + 1) v w hv hw) (index + 1)
      rw [itemsFrom, first, rest]
      rfl

/-- **A list is read** if its items are. -/
theorem reads_list {check : Json → Checked α} {write : α → Json}
    (reads : ∀ a, Reads naming check (write a) a) (values : List α) :
    Reads naming (list check) (.arr (values.map write)) values := by
  intro form h
  cases h with
  | arr length each => exact itemsFrom_of_reads reads values _ length each 0

end Values

/-! ## Records -/

section Records

variable (naming : Naming)

theorem reads_currencyAmount (a : CurrencyAmount) :
    Reads naming currencyAmount (toJson naming a) a := by
  refine reads_record (CurrencyAmount.distinct ..) (by simp [vocabulary]) fun given h => ?_
  rw [h.member (by decide) (by simp) (reads_text a.amount),
    h.member (by decide) (by simp) (reads_text a.currency)]
  rfl

theorem reads_currencyPrice (p : CurrencyPrice) :
    Reads naming currencyPrice (toJson naming p) p := by
  refine reads_record (CurrencyPrice.distinct ..) (by simp [vocabulary]) fun given h => ?_
  rw [h.member (by decide) (by simp) (reads_text p.amount),
    h.member (by decide) (by simp) (reads_text p.currencyA),
    h.member (by decide) (by simp) (reads_text p.currencyB)]
  rfl

theorem reads_blockchainSignature (s : BlockchainSignature) :
    Reads naming blockchainSignature (toJson naming s) s := by
  refine reads_record (BlockchainSignature.distinct ..) (by simp [vocabulary]) fun given h => ?_
  rw [h.member (by decide) (by simp) (reads_text s.blockchain),
    h.memberOr_nullable (by decide) s.nonceFrom (by simp) reads_nullable_integer,
    h.memberOr_nullable (by decide) s.nonceTo (by simp) reads_nullable_integer,
    h.member (by decide) (by simp) (reads_text s.publicKey),
    h.member (by decide) (by simp) (reads_text s.signature)]
  rfl

theorem reads_requestSignature (s : RequestSignature) :
    Reads naming requestSignature (toJson naming s) s := by
  refine reads_record (RequestSignature.distinct ..) (by simp [vocabulary]) fun given h => ?_
  rw [h.member (by decide) (by simp) (reads_text s.signedDigest),
    h.member (by decide) (by simp) (reads_text s.publicKey)]
  rfl

theorem reads_limitPayload (p : LimitPayload) : Reads naming limitPayload (toJson naming p) p := by
  refine reads_record (p.distinct naming) (by simp [LimitPayload.fields, vocabulary])
    fun given h => ?_
  rw [LimitPayload.fields] at h
  rw [h.member (by decide) (by simp) (reads_flag p.allowTaker),
    h.member (by decide) (by simp) (reads_direction p.direction),
    h.memberOr_nullable (by decide) p.cancelAt (by simp) reads_nullable_text,
    h.member (by decide) (by simp) (reads_policy p.policy),
    h.memberOr_nullable (by decide) p.clientOrderId (by simp) reads_nullable_text,
    h.member (by decide) (by simp) (reads_text p.marketName),
    h.member (by decide) (by simp) (reads_currencyAmount naming p.amount),
    h.member (by decide) (by simp) (reads_integer p.nonceFrom),
    h.member (by decide) (by simp) (reads_integer p.nonceTo),
    h.member (by decide) (by simp) (reads_integer p.nonceOrder),
    h.member (by decide) (by simp) (reads_integer p.timestamp),
    h.member (by decide) (by simp) (reads_currencyPrice naming p.limitPrice),
    h.memberOr (by decide) [] (by simp)
      (reads_list (reads_blockchainSignature naming) p.blockchainSignatures)]
  rfl

theorem reads_marketPayload (p : MarketPayload) :
    Reads naming marketPayload (toJson naming p) p := by
  refine reads_record (p.distinct naming) (by simp [MarketPayload.fields, vocabulary])
    fun given h => ?_
  rw [MarketPayload.fields] at h
  rw [h.member (by decide) (by simp) (reads_direction p.direction),
    h.memberOr_nullable (by decide) p.clientOrderId (by simp) reads_nullable_text,
    h.member (by decide) (by simp) (reads_text p.marketName),
    h.member (by decide) (by simp) (reads_currencyAmount naming p.amount),
    h.memberOr_nullable (by decide) p.nonceFrom (by simp) reads_nullable_integer,
    h.memberOr_nullable (by decide) p.nonceTo (by simp) reads_nullable_integer,
    h.member (by decide) (by simp) (reads_integer p.nonceOrder),
    h.member (by decide) (by simp) (reads_integer p.timestamp),
    h.memberOr (by decide) [] (by simp)
      (reads_list (reads_blockchainSignature naming) p.blockchainSignatures)]
  rfl

/-- What is posted for an order is read if its payload is. -/
theorem reads_posting [Wire π] {payload : Json → Checked π} (v : Posting π)
    (reads : Reads naming payload (toJson naming v.payload) v.payload) :
    Reads naming (posting payload) (toJson naming v) v := by
  refine reads_record (Posting.distinct ..) (by simp [vocabulary]) fun given h => ?_
  rw [h.member (by decide) (by simp) reads,
    h.memberOr (by decide) .empty (by simp) (reads_requestSignature naming v.signature),
    h.memberOr_nullable (by decide) v.affiliate (by simp) reads_nullable_text]
  rfl

end Records

/-! ## Orders -/

/-- The text that is signed for an operation, made of what the check accepts. -/
def textOf [Wire π] (check : Json → Checked (Posting π)) (limits : Json.Limits)
    (operation : String) (excluded : List String) (form : Json) : Except Failure String :=
  (check form).toExcept.bind fun v => Canonical.ofPosting limits operation v excluded

/-- An order is read back from what is written of it and from every other form of that, and the
text that is signed is the same for all of them. -/
structure ReadBack [Wire π] (check : Json → Checked (Posting π)) (naming : Naming)
    (v : Posting π) : Prop where
  written : check (toJson naming v) = .accepted v
  form : ∀ form, Form naming (toJson naming v) form → check form = .accepted v
  text : ∀ form, Form naming (toJson naming v) form → ∀ limits operation excluded,
    textOf check limits operation excluded form =
      Canonical.ofPosting limits operation v excluded

theorem Reads.readBack [Wire π] {check : Json → Checked (Posting π)} {naming : Naming}
    {v : Posting π} (reads : Reads naming check (toJson naming v) v)
    (plain : Json.Plain (toJson naming v)) : ReadBack check naming v where
  written := reads _ plain.alike_self
  form := reads
  text form h limits operation excluded := by
    rw [textOf, reads form h]
    rfl

/-- **Orders are read back** under both namings, and in every form. -/
theorem posting_read_back :
    (∀ (naming : Naming) (v : LimitPosting), ReadBack limitPosting naming v) ∧
      ∀ (naming : Naming) (v : MarketPosting), ReadBack marketPosting naming v := by
  refine ⟨fun naming v => ?_, fun naming v => ?_⟩
  · exact (reads_posting naming v (reads_limitPayload naming v.payload)).readBack
      (v.plain naming (v.payload.plain naming))
  · exact (reads_posting naming v (reads_marketPayload naming v.payload)).readBack
      (v.plain naming (v.payload.plain naming))

/-- Fields that have no value may be null, and all fields may be in another order. -/
theorem posting_read_back_nulls :
    let v : MarketPosting :=
      ⟨⟨.sell, none, "neo_gas", ⟨"1.5", "neo"⟩, none, some 7, 8, 9, []⟩, ⟨"d", "k"⟩, none⟩
    let form := Json.obj
      [("affiliate", .null),
        ("signature", .obj [("public_key", .str "k"), ("signed_digest", .str "d")]),
        ("payload", .obj [("timestamp", .int 9), ("nonce_order", .int 8), ("nonce_to", .int 7),
          ("nonce_from", .null), ("blockchain_signatures", .arr []),
          ("amount", .obj [("currency", .str "neo"), ("amount", .str "1.5")]),
          ("market_name", .str "neo_gas"), ("client_order_id", .null),
          ("buy_or_sell", .str "SELL")])]
    Form .canonical (toJson .canonical v) form ∧ marketPosting form = .accepted v := by
  intro v form
  have amount : Alike (blanks .canonical)
      (.obj [("amount", .str "1.5"), ("currency", .str "neo")])
      (.obj [("currency", .str "neo"), ("amount", .str "1.5")]) :=
    .of_fields (by decide) (by decide) (by simp [Alike.str]) (by simp)
  have signature : Alike (blanks .canonical)
      (.obj [("signed_digest", .str "d"), ("public_key", .str "k")])
      (.obj [("public_key", .str "k"), ("signed_digest", .str "d")]) :=
    .of_fields (by decide) (by decide) (by simp [Alike.str]) (by simp)
  have payload : Alike (blanks .canonical)
      (.obj [("buy_or_sell", .str "SELL"), ("market_name", .str "neo_gas"),
        ("amount", .obj [("amount", .str "1.5"), ("currency", .str "neo")]),
        ("nonce_to", .int 7), ("nonce_order", .int 8), ("timestamp", .int 9),
        ("blockchain_signatures", .arr [])])
      (.obj [("timestamp", .int 9), ("nonce_order", .int 8), ("nonce_to", .int 7),
        ("nonce_from", .null), ("blockchain_signatures", .arr []),
        ("amount", .obj [("currency", .str "neo"), ("amount", .str "1.5")]),
        ("market_name", .str "neo_gas"), ("client_order_id", .null),
        ("buy_or_sell", .str "SELL")]) := by
    have none_given : Alike (blanks .canonical) (.arr []) (.arr []) := .arr rfl (by simp)
    exact .of_fields (by decide) (by decide)
      (by simp [Alike.str, Alike.int, amount, none_given]) (by simp [blanks, Naming.key])
  have alike : Form .canonical (toJson .canonical v) form := by
    refine .of_fields (by decide) (by decide) ?_ (by simp [blanks, Naming.key])
    exact List.forall_mem_cons.2 ⟨⟨_, by simp [Naming.key], payload⟩,
      List.forall_mem_cons.2 ⟨⟨_, by simp [Naming.key], signature⟩, by simp⟩⟩
  exact ⟨alike, (posting_read_back.2 .canonical v).form form alike⟩

end SignedOrders.Intake
