import SignedOrders.Proofs.Tasks.Turnstile

/-!
# Tasks that wake others

What a running task does to the others is to wake them: it changes its own part, the lock and
the doors, and calls tasks that wait (`Stirs`).  The others stay where they stood, each with
the plan that it had (`Stirs.exists_stays`).

So the lists of the machine stay right at every point of a run: all that are awake are ready,
none of them twice, and all that sleep are listed (`Booked`).
-/

namespace SignedOrders.Tasks

variable {I : Interface} {σ ε α : Type}

/-- The task stands where it stood; what it waits for may have come. -/
structure Thread.Stays (t t' : Thread I σ ε α) : Prop where
  plan : t'.plan = t.plan
  point : t'.point = t.point
  told : t'.told = t.told
  wake : t'.wake = t.wake ∨ t.wake = .pending ∧ t'.wake = .granted

/-- The task, woken if it has not been. -/
def Thread.rouse (t : Thread I σ ε α) : Thread I σ ε α :=
  if t.wake = .pending then { t with wake := .granted } else t

theorem Thread.Stays.refl (t : Thread I σ ε α) : t.Stays t := ⟨rfl, rfl, rfl, .inl rfl⟩

theorem Thread.Stays.trans {t t' t'' : Thread I σ ε α} (h : t.Stays t') (h' : t'.Stays t'') :
    t.Stays t'' := by
  refine ⟨h'.plan.trans h.plan, h'.point.trans h.point, h'.told.trans h.told, ?_⟩
  have first := h.wake
  have second := h'.wake
  grind

theorem Thread.stays_rouse (t : Thread I σ ε α) : t.Stays t.rouse := by
  unfold rouse
  split
  · next pending => exact ⟨rfl, rfl, rfl, .inr ⟨pending, rfl⟩⟩
  · exact .refl t

theorem Thread.wake_rouse (t : Thread I σ ε α) : t.rouse.wake ≠ .pending := by
  unfold rouse
  split
  · exact nofun
  · next awake => exact awake

namespace Machine

/-- The lists of the machine are right about the tasks that wait, all but the one that runs. -/
structure Booked (m : Machine I σ ε α) (runs : Option Nat) : Prop where
  nodup : m.ready.Nodup
  ready : ∀ i ∈ m.ready, runs ≠ some i ∧ ∃ t, m.threads[i]? = some t ∧ t.wake ≠ .pending
  awake : ∀ i t, runs ≠ some i → m.threads[i]? = some t → t.wake ≠ .pending →
    (∀ outcome, t.point ≠ .ended outcome) → i ∈ m.ready
  listed : ∀ i t mode, runs ≠ some i → m.threads[i]? = some t → t.point = .asleep mode →
    i ∈ m.sleepers

/-- What the task that runs may do to the others and to the lists: it changes itself and
wakes others. -/
inductive Stirs (id : Nat) (m : Machine I σ ε α) : Machine I σ ε α → Prop where
  | refl : Stirs id m m
  | frame {m' last} (h : Stirs id m m') (threads : last.threads = m'.threads)
      (ready : last.ready = m'.ready)
      (sleepers : ∀ i, i ≠ id → i ∈ m'.sleepers → i ∈ last.sleepers) :
      Stirs id m last
  | own {m'} (h : Stirs id m m') (f : Thread I σ ε α → Thread I σ ε α) :
      Stirs id m (m'.modify id f)
  | awaken {m' i} (h : Stirs id m m') (other : i ≠ id) : Stirs id m (m'.awaken i)

section

variable {m m' last : Machine I σ ε α} {id i : Nat} {runs : Option Nat} {held held' : Bool}
  {p p' : Plan I σ ε α} {t t' : Thread I σ ε α} {new wrote : List Nat} {mode : Mode}

/-! ## Tasks that are woken -/

theorem Stirs.trans (h : Stirs id m m') (h' : Stirs id m' last) : Stirs id m last := by
  induction h' with
  | refl => exact h
  | frame _ threads ready sleepers ih => exact ih.frame threads ready sleepers
  | own _ f ih => exact ih.own f
  | awaken _ other ih => exact ih.awaken other

theorem getElem?_awaken (m : Machine I σ ε α) (i j : Nat) :
    (m.awaken i).threads[j]? = (m.threads[j]?).map fun t => if j = i then t.rouse else t := by
  unfold awaken
  -- only the task that is woken changes, and only if it sleeps
  by_cases hj : j = i
  · subst hj
    cases found : m.threads[j]? with
    | none =>
      rw [wakeOf, found]
      exact found
    | some t =>
      have wake : m.wakeOf j = t.wake := by rw [wakeOf, found]; rfl
      rw [wake, Option.map_some, if_pos rfl, Thread.rouse]
      split
      · rw [show Machine.threads _ = (m.modify j _).threads from rfl, getElem?_modify_self, found]
        rfl
      · exact found
  · simp only [if_neg hj, Option.map_id']
    split
    · exact m.getElem?_modify_of_ne hj _
    · rfl

theorem wakeOf_of_found (found : m.threads[i]? = some t) : m.wakeOf i = t.wake := by
  rw [wakeOf, found]
  rfl

theorem exists_of_wakeOf (pending : m.wakeOf i = .pending) :
    ∃ t, m.threads[i]? = some t ∧ t.wake = .pending := by
  cases found : m.threads[i]? with
  | none =>
    rw [wakeOf, found] at pending
    cases pending
  | some t => exact ⟨t, rfl, (wakeOf_of_found found).symm.trans pending⟩

theorem stirs_lists (threads : last.threads = m.threads) (ready : last.ready = m.ready)
    (sleepers : last.sleepers = m.sleepers) : Stirs id m last :=
  .frame .refl threads ready fun _ _ hi => sleepers ▸ hi

theorem stirs_report (m : Machine I σ ε α) (id : Nat) (notice : Notice ε α) :
    Stirs id m (m.report id notice) :=
  stirs_lists rfl rfl rfl

theorem stirs_arrive (m : Machine I σ ε α) (id : Nat) (mode : Mode) :
    Stirs id m (m.arrive mode) := by
  cases mode <;> exact stirs_lists rfl rfl rfl

theorem stirs_take (m : Machine I σ ε α) (id : Nat) (mode : Mode) : Stirs id m (m.take mode) := by
  cases mode <;> exact stirs_lists rfl rfl rfl

/-- Every other task stays. -/
theorem Stirs.stays (h : Stirs id m last) (other : i ≠ id) (found : last.threads[i]? = some t') :
    ∃ t, m.threads[i]? = some t ∧ t.Stays t' := by
  induction h generalizing t' with
  | refl => exact ⟨t', found, .refl t'⟩
  | frame _ threads _ _ ih =>
    rw [threads] at found
    exact ih found
  | own _ f ih =>
    rw [getElem?_modify_of_ne _ other] at found
    exact ih found
  | @awaken m' j _ _ ih =>
    rw [getElem?_awaken, Option.map_eq_some_iff] at found
    obtain ⟨u, found, rfl⟩ := found
    obtain ⟨t, found, stays⟩ := ih found
    refine ⟨t, found, ?_⟩
    split
    · exact stays.trans u.stays_rouse
    · exact stays

/-- A running task leaves no other task out. -/
theorem Stirs.exists_stays (h : Stirs id m last) (other : i ≠ id)
    (found : m.threads[i]? = some t) : ∃ t', last.threads[i]? = some t' ∧ t.Stays t' := by
  induction h with
  | refl => exact ⟨t, found, .refl t⟩
  | frame _ threads _ _ ih =>
    rw [threads]
    exact ih
  | own _ f ih =>
    rw [getElem?_modify_of_ne _ other]
    exact ih
  | @awaken m' j _ _ ih =>
    obtain ⟨u, found, stays⟩ := ih
    refine ⟨_, (getElem?_awaken m' j i).trans (congrArg _ found), ?_⟩
    split
    · exact stays.trans u.stays_rouse
    · exact stays

/-! ## The lists of the machine -/

/-- A task that waits is called, and joins those that are ready. -/
theorem Booked.call (h : m.Booked runs) (other : runs ≠ some i) (found : m.threads[i]? = some t)
    (pending : t.wake = .pending) {f : Thread I σ ε α → Thread I σ ε α}
    (point : (f t).point = t.point) (awake : (f t).wake ≠ .pending) :
    Booked { m.modify i f with ready := m.ready ++ [i] } runs := by
  have own : (m.modify i f).threads[i]? = some (f t) :=
    (m.getElem?_modify_self i f).trans (congrArg _ found)
  -- who waits is not ready, so that nobody is called twice
  have away : i ∉ m.ready := by
    intro hi
    obtain ⟨-, u, found', awake⟩ := h.ready i hi
    rw [Option.some.inj (found.symm.trans found')] at pending
    exact awake pending
  constructor
  case nodup =>
    refine List.nodup_append.2 ⟨h.nodup, List.nodup_singleton i, ?_⟩
    rintro j hj k hk rfl
    exact away (List.mem_singleton.1 hk ▸ hj)
  case ready =>
    intro j hj
    rcases List.mem_append.1 hj with before | called
    · have hji : j ≠ i := fun hji => away (hji ▸ before)
      obtain ⟨waits, u, found', awake'⟩ := h.ready j before
      exact ⟨waits, u, (m.getElem?_modify_of_ne hji f).trans found', awake'⟩
    · rw [List.mem_singleton.1 called]
      exact ⟨other, f t, own, awake⟩
  case awake =>
    intro j u waits found' awake' going
    by_cases hji : j = i
    · exact List.mem_append_right _ (List.mem_singleton.2 hji)
    · have found' := (m.getElem?_modify_of_ne hji f).symm.trans found'
      exact List.mem_append_left _ (h.awake j u waits found' awake' going)
  case listed =>
    intro j u mode waits found' asleep
    by_cases hji : j = i
    · subst hji
      rw [← Option.some.inj (own.symm.trans found')] at asleep
      exact h.listed j t mode waits found (point.symm.trans asleep)
    · exact h.listed j u mode waits ((m.getElem?_modify_of_ne hji f).symm.trans found') asleep

theorem Booked.awaken (h : m.Booked runs) (other : runs ≠ some i) : (m.awaken i).Booked runs := by
  unfold Machine.awaken
  split
  · next pending =>
    obtain ⟨t, found, pending⟩ := exists_of_wakeOf pending
    exact h.call other found pending rfl nofun
  · exact h

theorem Booked.congr (h : m.Booked runs) (threads : last.threads = m.threads)
    (ready : last.ready = m.ready)
    (sleepers : ∀ i, runs ≠ some i → i ∈ m.sleepers → i ∈ last.sleepers) : last.Booked runs := by
  constructor
  · rw [ready]
    exact h.nodup
  · rw [ready, threads]
    exact h.ready
  · rw [ready, threads]
    exact h.awake
  · rw [threads]
    exact fun i t mode waits found point => sleepers i waits (h.listed i t mode waits found point)

theorem Booked.modify (h : m.Booked (some id)) (f : Thread I σ ε α → Thread I σ ε α) :
    (m.modify id f).Booked (some id) := by
  have found_of {i : Nat} (waits : some id ≠ some i) :
      (m.modify id f).threads[i]? = m.threads[i]? :=
    m.getElem?_modify_of_ne (runs_ne_iff.1 waits) f
  constructor
  · exact h.nodup
  · intro i hi
    obtain ⟨waits, t, found, awake⟩ := h.ready i hi
    exact ⟨waits, t, (found_of waits).trans found, awake⟩
  · intro i t waits found
    exact h.awake i t waits ((found_of waits).symm.trans found)
  · intro i t mode waits found
    exact h.listed i t mode waits ((found_of waits).symm.trans found)

theorem Stirs.booked (h : Stirs id m last) (booked : m.Booked (some id)) :
    last.Booked (some id) := by
  induction h with
  | refl => exact booked
  | frame _ threads ready sleepers ih =>
    exact ih.congr threads ready fun i waits => sleepers i (runs_ne_iff.1 waits)
  | own _ f ih => exact ih.modify f
  | awaken _ other ih => exact ih.awaken (runs_ne_iff.2 other)

end

end Machine

end SignedOrders.Tasks
