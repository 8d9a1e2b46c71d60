import SignedOrders.Intake.Request
import SignedOrders.Proofs.Instant.Stamp

/-!
# Deadlines

A policy has its deadline as it was given, on whatever clock, and turns it into universal time when
it is written.  The instant is kept: the text is the stamp of that instant in universal time, and
policies have the same text exactly if they have the same instant (`Policy.deadline_kept`).
-/

namespace SignedOrders

open Instant (Stamp)

namespace Intake

namespace Checked

variable {α β γ : Type}

theorem andThen_eq_accepted {x : Checked α} {check : α → Checked β} {b : β}
    (h : x.andThen check = .accepted b) : ∃ a, x = .accepted a ∧ check a = .accepted b := by
  cases x with
  | accepted a => exact ⟨a, rfl, h⟩
  | refused _ => cases h

/-- Two values are accepted together only if each of them is. -/
theorem both_eq_accepted {f : α → β → γ} {x : Checked α} {y : Checked β} {c : γ}
    (h : f <$> x <*> y = .accepted c) : ∃ a b, x = .accepted a ∧ y = .accepted b ∧ f a b = c := by
  cases x with
  | refused _ => cases y <;> cases h
  | accepted a =>
    cases y with
    | refused _ => cases h
    | accepted b =>
      cases h
      exact ⟨a, b, rfl, rfl, rfl⟩

end Checked

variable {fields : Json.Fields} {stamp : Stamp} {p : Policy}

/-- A stamp is accepted for what its clock shows. -/
theorem nullable_reading_stamp (stamp : Stamp) :
    nullable reading (.str stamp.text) = .accepted (some stamp.reading) := by
  have accepted : reading (.str stamp.text) = .accepted stamp.reading := by
    simp only [reading, stamp.ofText_text]
  exact congrArg (Checked.map some) accepted

theorem cancelAt_field (given : fields.get? "cancel_at" = some (.str stamp.text)) :
    optional fields "cancel_at" none (nullable reading) = .accepted (some stamp.reading) := by
  simp only [optional, given, nullable_reading_stamp, Checked.inside]

/-- What is accepted of a policy are its fields, and they follow the rule for its kind. -/
theorem policy_eq_accepted (accepted : policy (.obj fields) = .accepted p) :
    p.brokenRule? = none ∧
      optional fields "cancel_at" none (nullable reading) = .accepted p.cancelAt := by
  obtain ⟨given, read, rule⟩ := Checked.andThen_eq_accepted accepted
  obtain ⟨kind, cancelAt, -, deadline, rfl⟩ := Checked.both_eq_accepted read
  split at rule
  · cases rule
  · next follows =>
    cases rule
    exact ⟨follows, deadline⟩

/-- Every stamp is accepted for a deadline. -/
theorem policy_of_stamp (kind : fields.get? "kind" = some (.str "GOOD_TIL_TIME"))
    (given : fields.get? "cancel_at" = some (.str stamp.text)) :
    policy (.obj fields) = .accepted (.goodTilTime stamp.reading) := by
  have named : optional fields "kind" .goodTilCancelled (named PolicyKind.ofName?) =
      .accepted .goodTilTime := by
    simp only [optional, kind, named]
    rfl
  simp only [policy, object, named, cancelAt_field given]
  rfl

end Intake

namespace Policy

variable {p q : Policy} {a b : Instant.Reading}

/-- The policy is accepted with this stamp for its deadline. -/
def IsGivenBy (p : Policy) (stamp : Stamp) : Prop :=
  ∃ fields : Json.Fields, fields.get? "cancel_at" = some (.str stamp.text) ∧
    Intake.policy (.obj fields) = .accepted p

/-- **A deadline is what the clock of the stamp shows** that is given for it. -/
theorem IsGivenBy.cancelAt_eq {stamp : Stamp} (given : p.IsGivenBy stamp) :
    p.cancelAt = some stamp.reading := by
  obtain ⟨fields, stamped, accepted⟩ := given
  have read := (Intake.policy_eq_accepted accepted).2
  rw [Intake.cancelAt_field stamped] at read
  exact (Intake.Checked.accepted.inj read).symm

/-- Every stamp can be given. -/
theorem isGivenBy_goodTilTime (stamp : Stamp) : (goodTilTime stamp.reading).IsGivenBy stamp :=
  ⟨[("kind", .str "GOOD_TIL_TIME"), ("cancel_at", .str stamp.text)], rfl,
    Intake.policy_of_stamp rfl rfl⟩

/-- A policy of the kind with a deadline has one. -/
theorem exists_eq_goodTilTime (follows : p.brokenRule? = none) (timed : p.kind = .goodTilTime) :
    ∃ a, p = .goodTilTime a := by
  obtain ⟨kind, cancelAt⟩ := p
  cases timed
  cases cancelAt with
  | none => cases follows
  | some a => exact ⟨a, rfl⟩

theorem cancelAtText_goodTilTime {text : String} (written : a.instant.toText? = some text) :
    (goodTilTime a).cancelAtText = .ok (some text) := by
  simp only [cancelAtText, goodTilTime, written]
  rfl

/-- **A deadline is written as the stamp of its instant** in universal time. -/
theorem exists_stamp (within : a.instant.InYears) : ∃ stamp : Stamp, stamp.zone = .universal ∧
    (goodTilTime a).cancelAtText = .ok (some stamp.text) ∧ stamp.instant = a.instant := by
  obtain ⟨stamp, universal, written, denotes⟩ := within.exists_stamp
  exact ⟨stamp, universal, cancelAtText_goodTilTime written, denotes⟩

/-- **Deadlines have the same text exactly if they are the same instant**, since each can be read
off its text. -/
theorem cancelAtText_eq_iff (withinA : a.instant.InYears) (withinB : b.instant.InYears) :
    (goodTilTime a).cancelAtText = (goodTilTime b).cancelAtText ↔ a.instant = b.instant := by
  constructor
  · intro same
    obtain ⟨s, -, writtenA, denotesA⟩ := exists_stamp withinA
    obtain ⟨t, -, writtenB, denotesB⟩ := exists_stamp withinB
    rw [writtenA, writtenB] at same
    have texts : s.text = t.text := Option.some.inj (Except.ok.inj same)
    have read := s.ofText_text
    rw [texts, t.ofText_text] at read
    rw [← denotesA, ← denotesB, ← s.instant_reading, ← t.instant_reading, Except.ok.inj read]
  · intro same
    simp only [cancelAtText, goodTilTime, same]

/-- **Deadlines are kept.**  A policy with a deadline has it as the reading of a clock, that of
whatever stamp was given for it, and so at the instant that this stamp denotes.  If the instant lies
in the years one to 9999 of universal time, the policy is written as a stamp in universal time of
exactly that instant; and two such policies have the same text just when they have the same
instant, on whatever clocks they were given. -/
theorem deadline_kept (followsP : p.brokenRule? = none) (timedP : p.kind = .goodTilTime)
    (followsQ : q.brokenRule? = none) (timedQ : q.kind = .goodTilTime) :
    ∃ a b, p.cancelAt = some a ∧ q.cancelAt = some b ∧
      (∀ given, p.IsGivenBy given → given.reading = a ∧ given.instant = a.instant) ∧
      (∀ given, q.IsGivenBy given → given.reading = b ∧ given.instant = b.instant) ∧
      (a.instant.InYears → ∃ stamp : Stamp, stamp.zone = .universal ∧
        p.cancelAtText = .ok (some stamp.text) ∧ stamp.instant = a.instant) ∧
      (a.instant.InYears → b.instant.InYears →
        (p.cancelAtText = q.cancelAtText ↔ a.instant = b.instant)) := by
  obtain ⟨a, rfl⟩ := exists_eq_goodTilTime followsP timedP
  obtain ⟨b, rfl⟩ := exists_eq_goodTilTime followsQ timedQ
  have shown {reading : Instant.Reading} {given : Stamp}
      (h : (goodTilTime reading).IsGivenBy given) :
      given.reading = reading ∧ given.instant = reading.instant := by
    obtain rfl : reading = given.reading := Option.some.inj h.cancelAt_eq
    exact ⟨rfl, given.instant_reading.symm⟩
  exact ⟨a, b, rfl, rfl, fun _ => shown, fun _ => shown, exists_stamp, cancelAtText_eq_iff⟩

/-- Half a second past half past eleven in the evening of a leap day, an hour behind universal time,
and the same moment there, on the first of March. -/
theorem deadline_kept_across_zones : ∃ evening morning : Stamp,
    evening.text = "2024-02-29T23:30:00.5-01:00" ∧
      morning.text = "2024-03-01T00:30:00.500000Z" ∧
      (goodTilTime evening.reading).IsGivenBy evening ∧
      (goodTilTime morning.reading).IsGivenBy morning ∧ evening.instant.InYears ∧
      (goodTilTime evening.reading).cancelAtText = (goodTilTime morning.reading).cancelAtText := by
  let evening : Stamp :=
    { year := ⟨['2', '0', '2', '4'], rfl, rfl⟩, month := ⟨['0', '2'], rfl, rfl⟩,
      day := ⟨['2', '9'], rfl, rfl⟩, hour := ⟨['2', '3'], rfl, rfl⟩,
      minute := ⟨['3', '0'], rfl, rfl⟩, second := ⟨['0', '0'], rfl, rfl⟩, fraction := ['5'],
      zone := .behind ⟨⟨['0', '1'], rfl, rfl⟩, ⟨['0', '0'], rfl, rfl⟩, by decide, by decide⟩,
      isDay := ⟨by decide, by decide⟩, hour_lt := by decide, minute_lt := by decide,
      second_lt := by decide, isDigit := rfl, length_le := by decide }
  let morning : Stamp :=
    { year := ⟨['2', '0', '2', '4'], rfl, rfl⟩, month := ⟨['0', '3'], rfl, rfl⟩,
      day := ⟨['0', '1'], rfl, rfl⟩, hour := ⟨['0', '0'], rfl, rfl⟩,
      minute := ⟨['3', '0'], rfl, rfl⟩, second := ⟨['0', '0'], rfl, rfl⟩,
      fraction := ['5', '0', '0', '0', '0', '0'], zone := .universal,
      isDay := ⟨by decide, by decide⟩, hour_lt := by decide, minute_lt := by decide,
      second_lt := by decide, isDigit := rfl, length_le := by decide }
  have same : evening.instant = morning.instant := by decide
  have within : morning.instant.InYears :=
    ⟨⟨⟨2024, 3, 1⟩, 1800500000, ⟨by decide, by decide⟩, by decide, by decide⟩, by decide⟩
  obtain ⟨a, b, hA, hB, -, -, -, texts⟩ :=
    deadline_kept (p := goodTilTime evening.reading) (q := goodTilTime morning.reading)
      rfl rfl rfl rfl
  cases Option.some.inj hA
  cases Option.some.inj hB
  rw [evening.instant_reading, morning.instant_reading] at texts
  exact ⟨evening, morning, by decide, by decide, isGivenBy_goodTilTime _, isGivenBy_goodTilTime _,
    same ▸ within, (texts (same ▸ within) within).2 same⟩

end Policy

end SignedOrders
