import SignedOrders.Proofs.Failure
import SignedOrders.Signer.Local

/-!
# A signer without a history

A local signer checks the texts of its keys once, when it is made, and reads a text again whenever
it signs or computes a public key.  It remembers the public keys that it has computed, and is
started and shut down in between.  None of this is seen by who asks it: the outcome of a call is the
one that can be told from the texts of the keys and from whether the signer is started
(`LocalSigner.transparent`).

The reference to which a signer is held is given on the texts of its keys (`KeyTexts.outcome`).  It
keeps nothing between calls.  What carries the proof is that a signer holds its texts (`Holds`): the
text that it has for a call is the one that it was made with, it remembers public keys of its own,
and each of its texts writes a key that can be used.  So no reading fails that comes after the
check, neither the one that signs nor the one for the public key
(`readKey_of_provision`, `Holds.outcome_of_provisioned`).
-/

namespace SignedOrders

/-- A call can only be answered by workers. -/
def SignerCall.needsWorkers : SignerCall → Bool
  | publicKey _ => false
  | digest .. | text _ => true

namespace LocalSigner

open Secp256k1

/-! ## The reference -/

/-- The keys of which a signer is made, as texts.  An empty text is no key. -/
structure KeyTexts where
  payload : String
  children : List (Chain × String)

/-- The answer to a call by the key that it asks for. -/
def answerWith (key : PrivateKey) : SignerCall → Reply
  | .publicKey _ => .key ⟨.secp256k1, Octets.toHex key.compressedPublicKey⟩
  | .digest _ octets => .signature (childSignature (key.sign octets))
  | .text canonical =>
    .request (requestSignature (key.sign (Hash.Sha256.digest canonical.toUTF8.toList))
      (Octets.toHex key.compressedPublicKey))

/-- The failure of a call for whose key there is no text, in the stage of that call. -/
def unprovisioned : SignerCall → Failure
  | .publicKey chain | .digest chain _ =>
    ⟨.signingUnavailable ("No child key provisioned for " ++ chain.code), some .blockchainSigning⟩
  | .text _ =>
    ⟨.signingUnavailable "Payload signing key is not provisioned", some .canonicalSigning⟩

namespace KeyTexts

/-- The text of the key of a chain. -/
def child? (texts : KeyTexts) (chain : Chain) : Option String :=
  (texts.children.find? fun entry => entry.1 == chain && entry.2 != "").map (·.2)

/-- The text of the key that a call asks for. -/
def for? (texts : KeyTexts) : SignerCall → Option String
  | .publicKey chain | .digest chain _ => texts.child? chain
  | .text _ => if texts.payload = "" then none else some texts.payload

/-- The outcome of a call, where `started` says whether there are workers. -/
def outcome (texts : KeyTexts) (started : Bool) : Call → Except Failure Reply
  | .start | .shutdown | .exit => .ok .done
  | .enter => .ok .entered
  | .ask call =>
    match texts.for? call with
    | none => .error (unprovisioned call)
    | some hex =>
      if call.needsWorkers && !started then fail .signerNotStarted
      else (readKey hex).map fun key => answerWith key call

end KeyTexts

/-- Whether a signer is started after a call. -/
def Call.leaves (started : Bool) : Call → Bool
  | .start | .enter => true
  | .shutdown | .exit => false
  | .ask _ => started

/-- The signer after some calls. -/
def after (s : LocalSigner) (calls : List Call) : LocalSigner :=
  calls.foldl (fun s call => (s.perform call).1) s

/-! ## The keys of a signer -/

/-- The text of the key that a call asks for. -/
def keyFor (s : LocalSigner) : SignerCall → Option String
  | .publicKey chain | .digest chain _ =>
    (s.childKeys.find? fun entry => entry.1 == chain).map (·.2)
  | .text _ => s.payloadKey

/-- The signer holds the texts, and they write keys that can be used. -/
structure Holds (texts : KeyTexts) (s : LocalSigner) : Prop where
  key : ∀ call, s.keyFor call = texts.for? call
  usable : ∀ call hex, texts.for? call = some hex → ∃ key, readKey hex = .ok key
  workers : 0 < s.maxWorkers
  remembered : ∀ chain key, (chain, key) ∈ s.remembered → s.publicKey chain = .ok key

section Made

/-- **A text that is accepted can be read.**  It is kept as it is, if it is not empty. -/
theorem readKey_of_provision {hex owner : String} {stage : Stage} {kept : Option String}
    (h : provision hex owner stage = .ok kept) :
    hex = "" ∧ kept = none ∨ hex ≠ "" ∧ kept = some hex ∧ ∃ key, readKey hex = .ok key := by
  unfold provision at h
  split at h
  · next empty =>
    cases h
    exact .inl ⟨empty, rfl⟩
  · next filled =>
    split at h
    · next key read =>
      cases h
      exact .inr ⟨filled, rfl, key, read⟩
    · cases h

/-- **The texts for chains are those that were given**, and they can be read. -/
theorem provisionChildren_eq_ok {children kept : List (Chain × String)}
    (h : provisionChildren children = .ok kept) (chain : Chain) :
    (kept.find? fun entry => entry.1 == chain).map (·.2) =
        (children.find? fun entry => entry.1 == chain && entry.2 != "").map (·.2) ∧
      ∀ hex, (children.find? fun entry => entry.1 == chain && entry.2 != "").map (·.2) = some hex →
        ∃ key, readKey hex = .ok key := by
  induction children generalizing kept with
  | nil =>
    cases h
    exact ⟨rfl, nofun⟩
  | cons entry children ih =>
    obtain ⟨owner, hex⟩ := entry
    obtain ⟨key, first, rest⟩ := bind_eq_ok.1 h
    obtain ⟨kept, later, ⟨⟩⟩ := bind_eq_ok.1 rest
    rcases readKey_of_provision first with ⟨rfl, rfl⟩ | ⟨filled, rfl, readable⟩
    · simpa using ih later
    · by_cases here : owner = chain
      · simpa [here, filled] using readable
      · simpa [here] using ih later

variable {payloadKey : String} {childKeys : List (Chain × String)} {maxWorkers : Int}
  {s : LocalSigner}

/-- **A signer that is made holds its texts**, and is not started. -/
theorem holds_ofKeys (made : ofKeys payloadKey childKeys maxWorkers = .ok s)
    (workers : 1 ≤ maxWorkers) : Holds ⟨payloadKey, childKeys⟩ s ∧ s.started = false := by
  obtain ⟨payload, first, rest⟩ := bind_eq_ok.1 made
  obtain ⟨children, later, ⟨⟩⟩ := bind_eq_ok.1 rest
  have child := provisionChildren_eq_ok later
  have own := readKey_of_provision first
  refine ⟨⟨fun call => ?_, fun call hex given => ?_, workers, fun _ _ mem => nomatch mem⟩, rfl⟩
  · cases call with
    | publicKey chain => exact (child chain).1
    | digest chain _ => exact (child chain).1
    | text _ =>
      rcases own with ⟨rfl, rfl⟩ | ⟨filled, rfl, -⟩
      · rfl
      · simp [KeyTexts.for?, keyFor, filled]
  · cases call with
    | publicKey chain => exact (child chain).2 hex given
    | digest chain _ => exact (child chain).2 hex given
    | text _ =>
      rcases own with ⟨rfl, -⟩ | ⟨filled, -, readable⟩
      · cases given
      · obtain rfl : payloadKey = hex := by simpa [KeyTexts.for?, filled] using given
        exact readable

end Made

/-! ## One call -/

section Calls

variable {texts : KeyTexts} {s : LocalSigner}

/-- **A signer answers by the text that it has**, which it reads for each answer. -/
theorem answer_eq (s : LocalSigner) (call : SignerCall) :
    (s.signer.answer call).map (replyOf call) =
      match s.keyFor call with
      | none => .error (unprovisioned call)
      | some hex =>
        if call.needsWorkers && !s.started then fail .signerNotStarted
        else (readKey hex).map fun key => answerWith key call := by
  cases call with
  | publicKey chain =>
    simp only [signer, publicKey, childKey, keyFor]
    cases (s.childKeys.find? fun entry => entry.1 == chain).map (·.2) with
    | none => rfl
    | some hex =>
      simp only [orFail, bind, Except.bind, compressedKey]
      cases readKey hex <;> rfl
  | digest chain octets =>
    simp only [signer, signDigest, childKey, keyFor]
    cases (s.childKeys.find? fun entry => entry.1 == chain).map (·.2) with
    | none => rfl
    | some hex =>
      simp only [orFail, bind, Except.bind, signWith]
      cases s.started with
      | false => rfl
      | true => cases readKey hex <;> rfl
  | text canonical =>
    simp only [signer, signText, keyFor]
    cases s.payloadKey with
    | none => rfl
    | some hex =>
      simp only [bind, Except.bind, signWith, compressedKey]
      cases s.started with
      | false => rfl
      -- the text is read twice, for the signature and then for the public key
      | true => cases readKey hex <;> rfl

/-- **The answers of a signer are those of the reference.** -/
theorem Holds.answer (h : Holds texts s) (call : SignerCall) :
    (s.signer.answer call).map (replyOf call) = texts.outcome s.started (.ask call) := by
  rw [answer_eq, h.key call]
  rfl

/-- The outcome of one call, and what it leaves behind. -/
structure Performs (texts : KeyTexts) (s : LocalSigner) (call : Call) : Prop where
  outcome : (s.perform call).2 = texts.outcome s.started call
  started : (s.perform call).1.started = call.leaves s.started
  holds : Holds texts (s.perform call).1
  unchanged : ∀ failure, (s.perform call).2 = .error failure → (s.perform call).1 = s

theorem performs_of_step {call : Call} {t : LocalSigner} {outcome : Except Failure Reply}
    (step : s.perform call = (t, outcome)) (reference : outcome = texts.outcome s.started call)
    (started : t.started = call.leaves s.started) (holds : Holds texts t)
    (unchanged : ∀ failure, outcome = .error failure → t = s) : Performs texts s call := by
  constructor <;> rw [step] <;> assumption

/-- Starting a signer with workers always succeeds. -/
theorem Holds.start_eq (h : Holds texts s) : s.start = .ok { s with started := true } := by
  unfold start
  split
  · next started =>
    cases s
    cases started
    rfl
  · rw [if_neg (Int.not_le.2 h.workers)]

theorem Holds.withStarted (h : Holds texts s) (started : Bool) :
    Holds texts { s with started } :=
  ⟨h.key, h.usable, h.workers, h.remembered⟩

/-- A public key of the signer's own can be remembered. -/
theorem Holds.remember (h : Holds texts s) {chain : Chain} {key : Key}
    (own : s.publicKey chain = .ok key) :
    Holds texts { s with remembered := (chain, key) :: s.remembered } := by
  refine ⟨h.key, h.usable, h.workers, fun other known mem => ?_⟩
  rcases List.mem_cons.1 mem with same | before
  · cases same
    exact own
  · exact h.remembered other known before

/-- **A public key is the same whether it is remembered or not.** -/
theorem Holds.performs_publicKey (h : Holds texts s) (chain : Chain) :
    Performs texts s (.ask (.publicKey chain)) := by
  have answer : (s.publicKey chain).map Reply.key =
      texts.outcome s.started (.ask (.publicKey chain)) := h.answer (.publicKey chain)
  have step : s.perform (.ask (.publicKey chain)) = s.rememberKey chain := rfl
  unfold rememberKey at step
  split at step
  · next entry key found =>
    obtain rfl : entry = chain := by simpa using List.find?_some found
    rw [h.remembered entry key (List.mem_of_find?_eq_some found)] at answer
    exact performs_of_step step answer rfl h fun _ failed => nomatch failed
  · split at step
    · next key computed =>
      rw [computed] at answer
      exact performs_of_step step answer rfl (h.remember computed) fun _ failed => nomatch failed
    · next failure failed =>
      rw [failed] at answer
      exact performs_of_step step answer rfl h fun _ _ => rfl

/-- **A call has the outcome of the reference**, leaves the signer with its keys, and as it was if
it fails. -/
theorem Holds.performs (h : Holds texts s) (call : Call) : Performs texts s call := by
  cases call with
  | start =>
    have step : s.perform .start = ({ s with started := true }, .ok .done) := by
      rw [perform, h.start_eq]
    exact performs_of_step step rfl rfl (h.withStarted true) fun _ failed => nomatch failed
  | enter =>
    have step : s.perform .enter = ({ s with started := true }, .ok .entered) := by
      rw [perform, h.start_eq]
    exact performs_of_step step rfl rfl (h.withStarted true) fun _ failed => nomatch failed
  | shutdown => exact ⟨rfl, rfl, h.withStarted false, fun _ failed => nomatch failed⟩
  | exit => exact ⟨rfl, rfl, h.withStarted false, fun _ failed => nomatch failed⟩
  | ask call =>
    cases call with
    | publicKey chain => exact h.performs_publicKey chain
    | digest chain octets => exact ⟨h.answer (.digest chain octets), rfl, h, fun _ _ => rfl⟩
    | text canonical => exact ⟨h.answer (.text canonical), rfl, h, fun _ _ => rfl⟩

/-! ## Any number of calls -/

/-- **After any calls** a signer holds its keys, and is started as the last of the calls that start
it or shut it down has left it. -/
theorem Holds.after (h : Holds texts s) (calls : List Call) :
    Holds texts (s.after calls) ∧
      (s.after calls).started = calls.foldl Call.leaves s.started := by
  induction calls generalizing s with
  | nil => exact ⟨h, rfl⟩
  | cons call calls ih =>
    have step := h.performs call
    have rest := ih step.holds
    rw [step.started] at rest
    exact rest

/-- **A provisioned key can always be used.**  The reference answers by the key that the text
writes, unless workers are needed and there are none. -/
theorem Holds.outcome_of_provisioned (h : Holds texts s) {call : SignerCall} {hex : String}
    (provisioned : texts.for? call = some hex) : ∃ key, readKey hex = .ok key ∧
      ∀ started, texts.outcome started (.ask call) =
        if call.needsWorkers && !started then fail .signerNotStarted
        else .ok (answerWith key call) := by
  obtain ⟨key, read⟩ := h.usable call hex provisioned
  refine ⟨key, read, fun started => ?_⟩
  simp only [KeyTexts.outcome, provisioned, read]
  rfl

end Calls

/-- After a history of calls, nothing of the history is seen but whether the signer is started. -/
structure Transparent (texts : KeyTexts) (s : LocalSigner) (history : List Call) : Prop where
  /-- The last call that starts or shuts down says whether the signer is started. -/
  started : (s.after history).started = history.foldl Call.leaves false
  /-- A call has the outcome of the reference. -/
  outcome : ∀ call, ((s.after history).perform call).2 =
    texts.outcome (s.after history).started call
  /-- Without a key a call is refused in its stage, whether the signer is started or not. -/
  refused : ∀ call, texts.for? call = none →
    ((s.after history).perform (.ask call)).2 = .error (unprovisioned call)
  /-- With a key a call is answered by that key, unless it needs workers that are not started. -/
  answered : ∀ call hex, texts.for? call = some hex → ∃ key, readKey hex = .ok key ∧
    ((s.after history).perform (.ask call)).2 =
      if call.needsWorkers && !(s.after history).started then fail .signerNotStarted
      else .ok (answerWith key call)
  /-- A failing call changes nothing for those after it. -/
  unchanged : ∀ call failure, ((s.after history).perform call).2 = .error failure →
    ((s.after history).perform call).1 = s.after history

/-- **A signer has no history.**  Whatever has been called before, a signer that was made of some
keys and has workers gives each call the outcome that a reference without any state reads off the
texts of the keys, the call, and whether the signer is started. -/
theorem transparent {payloadKey : String} {childKeys : List (Chain × String)} {maxWorkers : Int}
    {s : LocalSigner} (made : ofKeys payloadKey childKeys maxWorkers = .ok s)
    (workers : 1 ≤ maxWorkers) (history : List Call) :
    Transparent ⟨payloadKey, childKeys⟩ s history := by
  obtain ⟨holds, idle⟩ := holds_ofKeys made workers
  obtain ⟨now, started⟩ := holds.after history
  rw [idle] at started
  refine ⟨started, fun call => (now.performs call).outcome, fun call missing => ?_,
    fun call hex provisioned => ?_, fun call => (now.performs call).unchanged⟩
  · rw [(now.performs (.ask call)).outcome, KeyTexts.outcome, missing]
  · obtain ⟨key, read, outcome⟩ := now.outcome_of_provisioned provisioned
    exact ⟨key, read, (now.performs (.ask call)).outcome.trans (outcome _)⟩

/-- A signer with a key for itself and one for Ethereum, which has been asked for a key that it
does not have, and was started and shut down. -/
theorem transparent_after_refusal :
    let hex := "0x1111111111111111111111111111111111111111111111111111111111111111"
    let history := [.ask (.publicKey .bitcoin), .start, .ask (.publicKey .ethereum), .shutdown]
    let digest := List.replicate 32 0x07
    ∃ s, ofKeys hex [(.ethereum, hex), (.bitcoin, "")] 2 = .ok s ∧
      Transparent ⟨hex, [(.ethereum, hex), (.bitcoin, "")]⟩ s history ∧
      (s.after history).started = false ∧
      ((s.after history).perform (.ask (.digest .bitcoin digest))).2 =
        .error (unprovisioned (.digest .bitcoin digest)) ∧
      ((s.after history).perform (.ask (.digest .ethereum digest))).2 = fail .signerNotStarted := by
  intro hex history digest
  have usable : (readKey hex).toBool = true := by decide +kernel
  obtain ⟨key, read⟩ : ∃ key, readKey hex = .ok key := by
    cases read : readKey hex with
    | ok key => exact ⟨key, rfl⟩
    | error => rw [read] at usable; cases usable
  have filled : hex ≠ "" := by decide
  have made : ofKeys hex [(.ethereum, hex), (.bitcoin, "")] 2 =
      .ok ⟨some hex, [(.ethereum, hex)], 2, false, []⟩ := by
    simp only [ofKeys, provisionChildren, provision, if_neg filled, read]
    rfl
  have transparent := transparent made (by decide) history
  obtain ⟨_, -, refused⟩ := transparent.answered (.digest .ethereum digest) hex rfl
  rw [transparent.started] at refused
  exact ⟨_, made, transparent, transparent.started, transparent.refused _ rfl, refused⟩

end LocalSigner

end SignedOrders
