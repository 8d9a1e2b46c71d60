import Mathlib.Data.List.Forall2
import SignedOrders.Failure

/-!
# Computations that may fail

What a computation has gone through when it has given a value, and where it has failed when
it has not.
-/

namespace SignedOrders

variable {ε ε' α β : Type}

theorem bind_eq_ok {x : Except ε α} {f : α → Except ε β} {b : β} :
    (x >>= f) = .ok b ↔ ∃ a, x = .ok a ∧ f a = .ok b := by
  cases x with
  | ok a =>
    constructor
    · exact fun h => ⟨a, rfl, h⟩
    · rintro ⟨a, ⟨⟩, h⟩
      exact h
  | error e =>
    constructor
    · intro h
      cases h
    · rintro ⟨a, ⟨⟩, -⟩

theorem map_eq_ok {x : Except ε α} {f : α → β} {b : β} :
    x.map f = .ok b ↔ ∃ a, x = .ok a ∧ f a = b := by
  cases x with
  | ok a => simp [Except.map]
  | error e => simp [Except.map]

theorem mapError_eq_ok {x : Except ε α} {f : ε → ε'} {a : α} :
    x.mapError f = .ok a ↔ x = .ok a := by
  cases x with
  | ok b => simp [Except.mapError]
  | error e => simp [Except.mapError]

theorem orFail_eq_ok {cause : Cause} {o : Option α} {a : α} :
    orFail cause o = .ok a ↔ o = some a := by
  cases o with
  | some b => simp [orFail]
  | none => simp [orFail, fail]

theorem ofArithmetic_eq_ok {x : Except Decimal.Signal α} {a : α} :
    ofArithmetic x = .ok a ↔ x = .ok a :=
  mapError_eq_ok

theorem mapM_eq_ok {f : α → Except ε β} {items : List α} {values : List β} :
    items.mapM f = .ok values ↔ List.Forall₂ (fun a b => f a = .ok b) items values := by
  induction items generalizing values with
  | nil =>
    rw [List.mapM_nil, List.forall₂_nil_left_iff]
    constructor
    · rintro ⟨⟩
      rfl
    · rintro rfl
      rfl
  | cons a items ih =>
    rw [List.mapM_cons, bind_eq_ok]
    constructor
    · rintro ⟨b, first, rest⟩
      obtain ⟨values, later, ⟨⟩⟩ := bind_eq_ok.1 rest
      exact .cons first (ih.1 later)
    · rintro (_ | ⟨first, later⟩)
      exact ⟨_, first, bind_eq_ok.2 ⟨_, ih.2 later, rfl⟩⟩

theorem exists_of_forall₂ {R : α → β → Prop} {items : List α} {values : List β} {b : β}
    (h : List.Forall₂ R items values) (hb : b ∈ values) : ∃ a ∈ items, R a b := by
  induction h with
  | nil => cases hb
  | cons first later ih =>
    rcases List.mem_cons.1 hb with rfl | mem
    · exact ⟨_, List.mem_cons_self, first⟩
    · obtain ⟨a, ha, related⟩ := ih mem
      exact ⟨a, List.mem_cons_of_mem _ ha, related⟩

/-- What a list of computations gives is given by some of them. -/
theorem exists_of_mem_mapM {f : α → Except ε β} {items : List α} {values : List β} {b : β}
    (h : items.mapM f = .ok values) (hb : b ∈ values) : ∃ a ∈ items, f a = .ok b :=
  exists_of_forall₂ (R := fun a b => f a = .ok b) (mapM_eq_ok.1 h) hb

theorem bind_of_ok {x : Except ε α} {f : α → Except ε β} {a : α} (h : x = .ok a) :
    (x >>= f) = f a := by
  rw [h]
  rfl

/-! ## Failures -/

variable {e : ε}

theorem bind_of_error {x : Except ε α} {f : α → Except ε β} (h : x = .error e) :
    (x >>= f) = .error e := by
  rw [h]
  rfl

theorem bind_eq_error {x : Except ε α} {f : α → Except ε β} :
    (x >>= f) = .error e ↔ x = .error e ∨ ∃ a, x = .ok a ∧ f a = .error e := by
  cases x with
  | ok a =>
    constructor
    · exact fun h => .inr ⟨a, rfl, h⟩
    · rintro (⟨⟨⟩⟩ | ⟨a, ⟨⟩, h⟩)
      exact h
  | error e' =>
    constructor
    · intro h
      cases h
      exact .inl rfl
    · rintro (⟨⟨⟩⟩ | ⟨a, ⟨⟩, -⟩)
      rfl

theorem map_eq_error {x : Except ε α} {f : α → β} : x.map f = .error e ↔ x = .error e := by
  cases x with
  | ok a => simp [Except.map]
  | error e' => simp [Except.map]

theorem mapError_eq_error {x : Except ε α} {f : ε → ε'} {e' : ε'} :
    x.mapError f = .error e' ↔ ∃ e, x = .error e ∧ f e = e' := by
  cases x with
  | ok a => simp [Except.mapError]
  | error e => simp [Except.mapError]

theorem orFail_eq_error {cause : Cause} {o : Option α} {e : Failure} :
    orFail cause o = .error e ↔ o = none ∧ e = .of cause := by
  cases o with
  | some a => simp [orFail]
  | none => simp [orFail, fail, eq_comm]

theorem ofArithmetic_eq_error {x : Except Decimal.Signal α} {e : Failure} :
    ofArithmetic x = .error e ↔ ∃ signal, x = .error signal ∧ .ofSignal signal = e :=
  mapError_eq_error

/-- A list of computations fails as one of them does. -/
theorem exists_of_mapM_eq_error {f : α → Except ε β} {items : List α}
    (h : items.mapM f = .error e) : ∃ a ∈ items, f a = .error e := by
  induction items with
  | nil => cases h
  | cons a items ih =>
    rw [List.mapM_cons, bind_eq_error] at h
    rcases h with first | ⟨b, -, rest⟩
    · exact ⟨a, List.mem_cons_self, first⟩
    · rcases bind_eq_error.1 rest with later | ⟨values, -, ⟨⟩⟩
      obtain ⟨c, hc, failed⟩ := ih later
      exact ⟨c, List.mem_cons_of_mem _ hc, failed⟩

end SignedOrders
