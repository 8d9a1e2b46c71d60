import Mathlib.Data.List.Forall2
import SignedOrders.Proofs.Session.CommitOnce
import SignedOrders.Proofs.Tasks.WritesOnce

/-!
# The updates of a session

The markets, the signer and the nonce pools of a session change by **updates**, which are made
under the exclusive lock.  The log of a schedule has the tasks that have made one, in the order
in which they took the lock.

A task is in the log exactly if it has returned what tells that its update is made
(`Schedule.mem_log`).  Tasks that are in no log leave these parts of the session alone, and the
updates of the log, one after another, give what the session has at any time
(`Schedule.applyAll_updates`).
-/

namespace SignedOrders.Session

open Tasks Relation

/-! ## Updates -/

/-- A change of the markets, of the signer or of the nonce pools. -/
inductive Update where
  | markets (markets : List Market)
  | signer (signer : Option Signer)
  | pools (nonces : List (String × List Int))
  | advance (consumed : List (String × List Int))

namespace Update

/-- The session after an update. -/
def apply : Update → Session → Except Failure Session
  | markets given, s => .ok { s with catalog := .ofList given }
  | signer given, s => .ok { s with signer := given }
  | pools nonces, s => (Pools.install nonces).map fun pools => { s with pools := some pools }
  | advance consumed, s => s.advance consumed

/-- The session after some updates, one after another. -/
def applyAll (updates : List Update) (s : Session) : Except Failure Session :=
  updates.foldlM (fun s update => update.apply s) s

end Update

/-- The update that an operation makes when it finds the given signed requests. -/
def Operation.update? (s : Session) : Operation → Option Update
  | setMarkets markets => some (.markets markets)
  | setSigner signer => some (.signer signer)
  | replacePools nonces => some (.pools nonces)
  | advance consumed => some (.advance consumed)
  | commit id settled => (s.request? id).map fun request => .advance (request.consumed settled)
  | _ => none

/-- What an operation returns that has made an update. -/
def Operation.receipt? : Operation → Option Reply
  | setMarkets _ | setSigner _ | replacePools _ | advance _ => some .done
  | commit .. => some (.committed true)
  | _ => none

theorem agrees_revise (s : Session) (id : Nat) (f : SignedRequest → SignedRequest) :
    Agrees s (s.revise id f) := ⟨rfl, rfl, rfl⟩

theorem agrees_enroll (s : Session) (id : Nat) (request : SignedRequest) :
    Agrees s (s.enroll id request) := ⟨rfl, rfl, rfl⟩

/-- An update looks only at what it may change. -/
theorem Update.apply_of_agrees {update : Update} {s s' t : Session} (agrees : Agrees s s')
    (applied : update.apply s = .ok t) : ∃ t', update.apply s' = .ok t' ∧ Agrees t t' := by
  obtain ⟨catalog, signer, pools⟩ := agrees
  cases update with
  | markets markets =>
    cases applied
    exact ⟨_, rfl, rfl, signer, pools⟩
  | signer signer =>
    cases applied
    exact ⟨_, rfl, catalog, rfl, pools⟩
  | pools nonces =>
    obtain ⟨installed, given, rfl⟩ := map_eq_ok.1 applied
    exact ⟨_, map_eq_ok.2 ⟨installed, given, rfl⟩, catalog, signer, rfl⟩
  | advance consumed =>
    have applied : s.advance consumed = .ok t := applied
    show ∃ t', s'.advance consumed = .ok t' ∧ _
    unfold Session.advance at applied ⊢
    rw [pools]
    split at applied
    · obtain ⟨after, advanced, rfl⟩ := map_eq_ok.1 applied
      exact ⟨_, map_eq_ok.2 ⟨after, advanced, rfl⟩, catalog, signer, rfl⟩
    · split at applied
      · cases applied
        exact ⟨_, rfl, catalog, signer, rfl⟩
      · cases applied

/-- Only what a commit does depends on what has been signed. -/
theorem Operation.update?_congr {s t : Session} (operation : Operation)
    (other : ∀ id settled, operation ≠ .commit id settled) :
    operation.update? s = operation.update? t := by
  cases operation with
  | commit id settled => exact absurd rfl (other id settled)
  | _ => rfl

/-! ## Operations -/

/-- What an operation changes, and how it tells. -/
def Operation.effect (operation : Operation) : Effect Session Reply where
  alike := Agrees
  equivalence := ⟨Agrees.refl, Agrees.symm, Agrees.trans⟩
  writes s t := ∃ r update, operation.update? r = some update ∧ update.apply s = .ok t
  receipt reply := operation.receipt? = some reply

theorem writesOnce_read {e : Effect Session Reply} {look : Session → Except Failure Reply}
    (silent : ∀ reply, ¬ e.receipt reply) : (Plan.read look : Action Reply).WritesOnce e := by
  intro s
  show (Plan.ofExcept (look s)).WritesOnce e
  cases look s with
  | ok reply => exact silent reply
  | error e => trivial

theorem writesOnce_keep {e : Effect Session Reply} {id : Nat} {build : Action SignedRequest}
    (reads : ReadOnly build) (enroll : ∀ request s, e.alike s (s.enroll id request))
    (silent : ∀ reply, ¬ e.receipt reply) : (keep id build).WritesOnce e :=
  reads.writesOnce_bind fun request => ⟨enroll request, silent _⟩

/-- **An operation makes at most one update**, and returns its receipt exactly if it does. -/
theorem writesOnce_plan (service : Service) (id : Nat) (operation : Operation) :
    (operation.plan service id).WritesOnce operation.effect := by
  cases operation with
  | getMarket name => exact writesOnce_read (by rintro _ ⟨⟩)
  | resolve name => exact writesOnce_read (by rintro _ ⟨⟩)
  | pool asset => exact writesOnce_read (by rintro _ ⟨⟩)
  | marketNames => exact writesOnce_read (by rintro _ ⟨⟩)
  | signerKind => exact writesOnce_read (by rintro _ ⟨⟩)
  | setMarkets markets => exact ⟨fun s t changed => ⟨s, _, rfl, changed⟩, rfl⟩
  | setSigner signer => exact ⟨fun s t changed => ⟨s, _, rfl, changed⟩, rfl⟩
  | replacePools nonces =>
    rw [Operation.plan]
    cases installed : Pools.install nonces with
    | ok pools =>
      refine ⟨fun s t changed => ⟨s, .pools nonces, rfl, ?_⟩, rfl⟩
      rw [Update.apply, installed]
      exact changed
    | error e => trivial
  | advance consumed => exact ⟨fun s t changed => ⟨s, _, rfl, changed⟩, rfl⟩
  | limitOrders time requests =>
    exact writesOnce_keep (Build.readOnly_limits service time requests)
      (fun _ s => agrees_enroll s id _) (by rintro _ ⟨⟩)
  | marketOrder time request =>
    exact writesOnce_keep (Build.readOnly_market service time request)
      (fun _ s => agrees_enroll s id _) (by rintro _ ⟨⟩)
  | commit of settled =>
    intro s
    dsimp only
    split
    · rintro ⟨⟩
    · rename_i request found
      split
      · rintro ⟨⟩
      · refine ⟨fun u t advanced => ⟨s, .advance (request.consumed settled), ?_, advanced⟩,
          fun s => agrees_revise s of _, rfl⟩
        rw [Operation.update?, found, Option.map_some]
  | hold =>
    intro told
    cases told with
    | returned => rintro ⟨⟩
    | _ => trivial
  | idle => rintro ⟨⟩

/-! ## The log -/

/-- The tasks that have written before an event, in the order in which they took the lock. -/
def log (writes : Nat → List Nat) (k : Nat) : List Nat := (List.range k).flatMap writes

theorem log_succ (writes : Nat → List Nat) (k : Nat) :
    log writes (k + 1) = log writes k ++ writes k := by
  rw [log, List.range_succ, List.flatMap_append, List.flatMap_singleton]
  rfl

namespace Schedule

variable {h : Schedule} {writes : Nat → List Nat} {i k task : Nat} {operation : Operation}
  {t : Thread signing Session Failure Reply}

theorem mem_log_iff_wrote : task ∈ log writes k ↔ Wrote writes k task := by
  simp [log, Wrote]

/-- How a task stands before an event: it has not written, or it has ended with its receipt. -/
def Stands (writes : Nat → List Nat) (k task : Nat) (operation : Operation)
    (t : Thread signing Session Failure Reply) : Prop :=
  (¬ Wrote writes k task ∧ t.Clean operation.effect) ∨
    Wrote writes k task ∧ ∃ reply, t.point = .ended (.returned reply) ∧
      operation.receipt? = some reply

theorem Stands.succ (stands : Stands writes k task operation t)
    (unmoved : task ∉ writes k) : Stands writes (k + 1) task operation t := by
  unfold Stands
  rw [wrote_succ, or_iff_left unmoved]
  exact stands

/-- The task that runs writes only if it has not. -/
theorem Stands.move (stands : Stands writes k task operation t)
    (traced : h.Traced writes) (moves : (h.move k).task? = some task)
    (found : (h.state k).scene[task]? = some t) :
    ∃ u, (h.state (k + 1)).scene[task]? = some u ∧ Stands writes (k + 1) task operation u := by
  rcases stands with ⟨yet, clean⟩ | ⟨wrote, reply, ended, receipt⟩
  · rcases (traced k).fares moves found clean with
      ⟨nothing, -, u, found', clean'⟩ | ⟨wrote, -, u, reply, found', ended, receipt⟩
    · exact ⟨u, found', Stands.succ (.inl ⟨yet, clean'⟩) (by simp [nothing])⟩
    · exact ⟨u, found', .inr ⟨wrote_succ.2 (.inr (by simp [wrote])), reply, ended, receipt⟩⟩
  · obtain ⟨nothing, -, same⟩ := (traced k).of_ended moves found ended
    exact ⟨t, by rw [same]; exact found,
      Stands.succ (.inr ⟨wrote, reply, ended, receipt⟩) (by simp [nothing])⟩

/-- A task that is started has not written. -/
theorem stands_of_start (traced : h.Traced writes)
    (length : task = (h.state k).threads.length) (start : h.move k = .start t.plan)
    (fresh : t = ⟨t.plan, .fresh, .pending, none, false⟩) (performs : h.Performs task operation) :
    Stands writes (k + 1) task operation t := by
  obtain ⟨other, -, plan, performs'⟩ := performs_of_start start
  rw [← length] at plan performs'
  cases performs.unique performs'
  refine .inl ⟨traced.not_wrote (Nat.le_of_eq length.symm), ?_, ?_⟩
  · rw [plan]
    exact writesOnce_plan h.service task operation
  · rw [fresh]
    rintro reply ⟨⟩

/-- **All tasks stand so, at any time.** -/
theorem stands (traced : h.Traced writes) (k : Nat) :
    ∀ task operation t, (h.state k).scene[task]? = some t → h.Performs task operation →
      Stands writes k task operation t := by
  induction k with
  | zero => rintro task operation t ⟨⟩
  | succ k ih =>
    intro task operation u found performs
    have goes := traced k
    rcases goes.before_cases found with
      ⟨moves, t, before⟩ | ⟨rests, before⟩ | ⟨length, start, fresh⟩
    · obtain ⟨v, found', stands⟩ := (ih task operation t before performs).move traced moves before
      rwa [Option.some.inj (found.symm.trans found')]
    · have unmoved : task ∉ writes k := fun wrote => rests (goes.wrote_subset task wrote)
      exact (ih task operation u before performs).succ unmoved
    · exact stands_of_start traced length start fresh performs

/-- **An event** leaves the markets, the signer and the pools as they are, or a task writes that
had not written, and they change by the update of its operation. -/
theorem event_cases (traced : h.Traced writes) (k : Nat) :
    (writes k = [] ∧ Agrees (h.data k) (h.data (k + 1))) ∨
      ∃ task operation, writes k = [task] ∧ h.Performs task operation ∧ ¬ Wrote writes k task ∧
        operation.effect.Made (h.data k) (h.data (k + 1)) := by
  rcases traced.move_cases k with ⟨nothing, same, -⟩ | ⟨mover, operation, t, moves, found, performs⟩
  · exact .inl ⟨nothing, agrees_of_eq same⟩
  · rcases stands traced k mover operation t found performs with ⟨yet, clean⟩ | ⟨-, _, ended, -⟩
    · rcases (traced k).fares moves found clean with ⟨nothing, alike, -⟩ | ⟨wrote, made, -⟩
      · exact .inl ⟨nothing, alike⟩
      · exact .inr ⟨mover, operation, wrote, performs, yet, made⟩
    · obtain ⟨nothing, same, -⟩ := (traced k).of_ended moves found ended
      exact .inl ⟨nothing, agrees_of_eq same⟩

/-- No task writes twice. -/
theorem nodup_log (traced : h.Traced writes) (k : Nat) : (log writes k).Nodup := by
  induction k with
  | zero => exact List.nodup_nil
  | succ k ih =>
    rw [log_succ]
    rcases event_cases traced k with ⟨nothing, -⟩ | ⟨task, operation, wrote, -, yet, -⟩
    · rwa [nothing, List.append_nil]
    · rw [wrote, List.nodup_append]
      refine ⟨ih, List.nodup_singleton task, fun other logged writer mem same => yet ?_⟩
      cases List.mem_singleton.1 mem
      exact mem_log_iff_wrote.1 (same ▸ logged)

/-- **A task is in the log if and only if it has returned the receipt of its operation.** -/
theorem mem_log (traced : h.Traced writes) : task ∈ log writes k ↔
    ∃ operation reply, h.Performs task operation ∧ operation.receipt? = some reply ∧
      (h.state k).outcome? task = some (.returned reply) := by
  rw [mem_log_iff_wrote]
  constructor
  · rintro ⟨i, hi, wrote⟩
    have present : task < (h.state k).threads.length :=
      Nat.lt_of_lt_of_le (traced.lt_of_mem wrote) (h.length_mono (Nat.le_of_lt hi))
    rw [← Machine.length_scene] at present
    have found := List.getElem?_eq_getElem present
    obtain ⟨operation, performs⟩ := exists_performs found
    rcases stands traced k task operation _ found performs with
      ⟨yet, -⟩ | ⟨-, reply, ended, receipt⟩
    · exact absurd ⟨i, hi, wrote⟩ yet
    · exact ⟨operation, reply, performs, receipt, outcome?_eq_some.2 ⟨_, found, ended⟩⟩
  · rintro ⟨operation, reply, performs, receipt, ended⟩
    obtain ⟨t, found, point⟩ := outcome?_eq_some.1 ended
    rcases stands traced k task operation t found performs with ⟨-, clean⟩ | ⟨wrote, -⟩
    · exact absurd receipt (clean.untold reply point)
    · exact wrote

/-! ## The updates of the log -/

/-- A task makes an update, of the nonces of the request that it finds before an event if it is
a commit. -/
def Makes (h : Schedule) (k task : Nat) (update : Update) : Prop :=
  ∃ operation, h.Performs task operation ∧ operation.update? (h.data k) = some update

/-- A task makes one update. -/
theorem makes_rightUnique : Relator.RightUnique (h.Makes k) := by
  rintro task update update' ⟨operation, performs, makes⟩ ⟨operation', performs', makes'⟩
  cases performs.unique performs'
  exact Option.some.inj (makes.symm.trans makes')

/-- **Before a later event, an event** has left the markets, the signer and the pools as they
were, or a task has made its update that had not made one. -/
theorem made_cases (traced : h.Traced writes) (later : i < k) :
    (writes i = [] ∧ Agrees (h.data i) (h.data (i + 1))) ∨
      ∃ task operation update t, writes i = [task] ∧ h.Performs task operation ∧
        operation.update? (h.data k) = some update ∧ update.apply (h.data i) = .ok t ∧
        Agrees t (h.data (i + 1)) := by
  rcases event_cases traced i with nothing | ⟨task, operation, wrote, performs, -, made⟩
  · exact .inl nothing
  · refine .inr ⟨task, operation, ?_⟩
    by_cases commits : ∃ id settled, operation = .commit id settled
    · -- a commit consumes the nonces of the request that it finds, which are the same later
      obtain ⟨id, settled, rfl⟩ := commits
      have advances : h.Advances writes i task id :=
        ⟨wrote ▸ List.mem_singleton.2 rfl, settled, performs⟩
      obtain ⟨settled', consuming⟩ := advances.consuming traced
      cases performs.unique consuming.performs
      obtain ⟨request, t, found, -, advanced, marked⟩ := consuming.consumes
      obtain ⟨request', found', sides⟩ := exists_request_later (Nat.le_of_lt later) found
      refine ⟨.advance (request.consumed settled), t, wrote, performs, ?_, advanced, ?_⟩
      · rw [Operation.update?, found', Option.map_some, SignedRequest.consumed_congr sides]
      · rw [marked]
        exact agrees_revise ..
    · obtain ⟨s, v, before, ⟨r, update, makes, applied⟩, after⟩ := made
      obtain ⟨t, applied, agrees⟩ := update.apply_of_agrees before.symm applied
      have makes' : operation.update? (h.data k) = some update := by
        rw [← makes]
        exact operation.update?_congr fun id settled is => commits ⟨id, settled, is⟩
      exact ⟨update, t, wrote, performs, makes', applied, agrees.symm.trans after⟩

/-- **The updates of the log, one after another,** give the markets, the signer and the pools. -/
theorem applyAll_updates (traced : h.Traced writes) (hik : i ≤ k) :
    ∃ updates t, List.Forall₂ (h.Makes k) (log writes i) updates ∧
      Update.applyAll updates h.start = .ok t ∧ Agrees t (h.data i) := by
  induction i with
  | zero => exact ⟨[], h.start, .nil, rfl, Agrees.refl _⟩
  | succ i ih =>
    obtain ⟨updates, s, makes, applied, agrees⟩ := ih (by omega)
    rw [log_succ]
    rcases made_cases traced hik with
      ⟨nothing, same⟩ | ⟨task, operation, update, t, wrote, performs, made, next, agrees'⟩
    · rw [nothing, List.append_nil]
      exact ⟨updates, s, makes, applied, agrees.trans same⟩
    · obtain ⟨t', next', agrees''⟩ := update.apply_of_agrees agrees.symm next
      refine ⟨updates ++ [update], t', ?_, ?_, agrees''.symm.trans agrees'⟩
      · rw [wrote]
        exact List.rel_append makes (.cons ⟨operation, performs, made⟩ .nil)
      · unfold Update.applyAll at applied ⊢
        rw [List.foldlM_append, applied]
        refine bind_eq_ok.2 ⟨s, rfl, ?_⟩
        rw [List.foldlM_cons, next']
        rfl

end Schedule

end SignedOrders.Session
