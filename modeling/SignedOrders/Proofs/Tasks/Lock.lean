import Mathlib.Data.List.Induction
import SignedOrders.Proofs.Tasks.Changes

/-!
# The lock is safe

The lock counts its readers and the tasks that want to write, and says whether there is a
writer.  The counts are **exact** at every point of every run: they agree with where the
tasks are, and readers and writers exclude each other (`exact_of_moves`).

Tasks take the lock and give it back as steps of their plans do, so that none gives back a
lock that it does not have (`Plan.Bracketed`).  They may ask under the lock, and be
cancelled at any time: asleep, when they have just been woken, or with the lock.

A **tally** is an exact count with one task left out, the one that moves.  What that task
holds or seeks is counted beside the others.
-/

namespace SignedOrders.Tasks

variable {I : Interface} {σ ε α : Type}

/-- The plan gives the lock back only after it has taken it. -/
def Plan.Bracketed (p : Plan I σ ε α) : Prop := p.Within fun _ _ => True

/-- How a task that waits holds the lock, if it does. -/
def Point.held? : Point ε α → Option Mode
  | .inside mode | .leaving mode => some mode
  | .asking under | .answered under _ => under
  | _ => none

/-- How a task that waits for the lock wants to hold it. -/
def Point.sought? : Point ε α → Option Mode
  | .atGate mode | .asleep mode | .returning mode _ => some mode
  | _ => none

/-- The number of tasks that hold the lock: of those that wait, and of the one that runs. -/
def insiders (waiting : List (Thread I σ ε α)) (running : Option Mode) (mode : Mode) : Nat :=
  (waiting.countP fun t => t.point.held? = some mode) + if running = some mode then 1 else 0

/-- The number of tasks that wait for the lock. -/
def seekers (waiting : List (Thread I σ ε α)) (mode : Mode) : Nat :=
  waiting.countP fun t => t.point.sought? = some mode

namespace Machine

/-- The counts of the lock agree with where the tasks are, and readers and writers exclude
each other. -/
structure Exact (m : Machine I σ ε α) (waiting : List (Thread I σ ε α)) (running : Option Mode) :
    Prop where
  readers : m.readers = insiders waiting running .shared
  writing : m.writing = true ↔ insiders waiting running .exclusive = 1
  one_writer : insiders waiting running .exclusive ≤ 1
  apart : insiders waiting running .exclusive = 0 ∨ insiders waiting running .shared = 0
  writersWaiting : m.writersWaiting = seekers waiting .exclusive

/-- The running task has the lock for the first step of its plan, or it does not. -/
def running (held : Bool) (p : Plan I σ ε α) : Option Mode := if held then p.wants? else none

/-- A point inside a move of the machine: the task `id` runs, and has come to the machine
`m'` and to the plan `p`. -/
inductive Reaches (m : Machine I σ ε α) (id : Nat) :
    Machine I σ ε α → Bool → Plan I σ ε α → Prop where
  | turn {t m' held p} (ready : id ∈ m.ready) (found : m.threads[id]? = some t)
      (wakes : Wakes id (m.pick id) t m' held p) : Reaches m id m' held p
  | reply {under wanted question next told serial} (world : World I)
      (found : m.threads[id]? =
        some ⟨.ask wanted question next, .asking under, .pending, told, serial⟩)
      (now : world.turns question = 0) :
      Reaches m id (m.handBack under) false (next (world.answer question))
  | goes {m' held p new m'' held' p'} (h : Reaches m id m' held p)
      (goes : Goes id m' held p new m'' held' p') : Reaches m id m'' held' p'

/-- The counts of the lock, where the task that moves holds or seeks the lock beside the
others. -/
structure Tally (m : Machine I σ ε α) (others : List (Thread I σ ε α)) (held sought : Option Mode) :
    Prop where
  readers : m.readers = insiders others held .shared
  writers : (if m.writing then 1 else 0) = insiders others held .exclusive
  apart : m.writing = true → m.readers = 0
  writersWaiting :
    m.writersWaiting = seekers others .exclusive + if sought = some .exclusive then 1 else 0

section

variable {m m' last : Machine I σ ε α} {id : Nat} {l l' : List (Thread I σ ε α)}
  {held held' : Bool} {p p' : Plan I σ ε α} {t : Thread I σ ε α} {new wrote : List Nat}
  {mode : Mode} {has seeks : Option Mode}

/-! ## Tallies -/

theorem Tally.congr (h : Tally m l has seeks) (readers : last.readers = m.readers)
    (writing : last.writing = m.writing) (waiting : last.writersWaiting = m.writersWaiting) :
    Tally last l has seeks := by
  obtain ⟨h₁, h₂, h₃, h₄⟩ := h
  constructor
  · rwa [readers]
  · rwa [writing]
  · rwa [readers, writing]
  · rwa [waiting]

theorem Tally.of_core (h : Tally m l has seeks) (same : last.core = m.core) :
    Tally last l has seeks := by
  refine h.congr ?_ ?_ ?_
  · show last.core.readers = m.core.readers
    rw [same]
  · show last.core.writing = m.core.writing
    rw [same]
  · show last.core.writersWaiting = m.core.writersWaiting
    rw [same]

theorem Tally.of_frame (h : Tally m l has seeks) (same : last.frame = m.frame) :
    Tally last l has seeks := by
  refine h.congr ?_ ?_ ?_
  · show last.frame.readers = m.frame.readers
    rw [same]
  · show last.frame.writing = m.frame.writing
    rw [same]
  · show last.frame.writersWaiting = m.frame.writersWaiting
    rw [same]

/-- A task is counted with the others or beside them. -/
theorem tally_cons : Tally m (t :: l) none none ↔ Tally m l t.point.held? t.point.sought? := by
  have counted (mode : Mode) : insiders (t :: l) none mode = insiders l t.point.held? mode := by
    simp [insiders, List.countP_cons]
  have sought : (seekers (t :: l) .exclusive : Int) =
      seekers l .exclusive + if t.point.sought? = some .exclusive then 1 else 0 := by
    by_cases seeks : t.point.sought? = some .exclusive <;> simp [seekers, seeks]
  constructor
  · rintro ⟨h₁, h₂, h₃, h₄⟩
    exact ⟨by rwa [← counted], by rwa [← counted], h₃, by simpa [sought] using h₄⟩
  · rintro ⟨h₁, h₂, h₃, h₄⟩
    exact ⟨by rwa [counted], by rwa [counted], h₃, by simpa [sought] using h₄⟩

theorem Tally.perm (h : Tally m l has seeks) (same : l.Perm l') : Tally m l' has seeks := by
  have counted (mode : Mode) : insiders l' has mode = insiders l has mode := by
    rw [insiders, insiders, same.countP_eq]
  have sought : seekers l' .exclusive = seekers l .exclusive := (same.countP_eq _).symm
  exact ⟨by rw [counted]; exact h.readers, by rw [counted]; exact h.writers, h.apart,
    by rw [sought]; exact h.writersWaiting⟩

theorem Tally.of_found (h : Tally m m.scene none none) (found : m.scene[id]? = some t) :
    Tally m (m.others id) t.point.held? t.point.sought? :=
  tally_cons.1 (h.perm (scene_perm found).symm)

theorem Tally.scene (h : Tally m (m.others id) t.point.held? t.point.sought?)
    (found : m.scene[id]? = some t) : Tally m m.scene none none :=
  (tally_cons.2 h).perm (scene_perm found)

/-! ## What is done with the lock -/

theorem Tally.arrive (h : Tally m l none none) : Tally (m.arrive mode) l none (some mode) := by
  obtain ⟨h₁, h₂, h₃, h₄⟩ := h
  cases mode with
  | shared => exact ⟨h₁, h₂, h₃, h₄⟩
  | exclusive =>
    refine ⟨h₁, h₂, h₃, ?_⟩
    show m.writersWaiting + 1 = _
    rw [h₄]
    simp

/-- A task takes the lock that admits it. -/
theorem Tally.take (h : Tally m l none (some mode)) (free : m.admits mode = true) :
    Tally (m.take mode) l (some mode) none := by
  obtain ⟨h₁, h₂, h₃, h₄⟩ := h
  cases mode with
  | shared =>
    have idle : m.writing = false := by
      have h := (Bool.and_eq_true _ _ ▸ free : _ ∧ _).1
      simpa using h
    rw [idle] at h₂
    refine ⟨?_, ?_, ?_, h₄⟩
    · show m.readers + 1 = _
      rw [h₁]
      simp [insiders]
    · show (if m.writing then 1 else 0) = _
      rw [idle, h₂]
      simp [insiders]
    · intro writing
      cases idle.symm.trans writing
  | exclusive =>
    have idle : m.writing = false ∧ m.readers = 0 := by
      simpa [admits] using free
    rw [idle.1] at h₂
    refine ⟨?_, ?_, fun _ => idle.2, ?_⟩
    · show m.readers = _
      rw [h₁]
      simp [insiders]
    · show 1 = _
      have none_holds : insiders l none .exclusive = 0 := h₂.symm
      simp only [insiders] at none_holds ⊢
      simp at none_holds ⊢
      exact none_holds
    · show m.writersWaiting - 1 = _
      rw [h₄]
      simp

/-- A task gives the lock back. -/
theorem Tally.release (h : Tally m l (some mode) none) : Tally (m.release mode) l none none := by
  obtain ⟨h₁, h₂, h₃, h₄⟩ := h
  cases mode with
  | shared =>
    refine Tally.of_core (m := { m with readers := m.readers - 1 }) ?_ m.core_release_shared
    have one : m.readers = insiders l none .shared + 1 := by
      rw [h₁]
      simp [insiders]
    refine ⟨?_, ?_, ?_, h₄⟩
    · show m.readers - 1 = _
      omega
    · show (if m.writing then 1 else 0) = _
      rw [h₂]
      simp [insiders]
    · intro writing
      -- a writer would exclude the reader that gives the lock back
      have none_reads := h₃ writing
      omega
  | exclusive =>
    refine Tally.of_core (m := { m with writing := false }) ?_ m.core_release_exclusive
    have one : (if m.writing then 1 else 0) = insiders l none .exclusive + 1 := by
      rw [h₂]
      simp [insiders]
    have writing : m.writing = true := by
      by_contra idle
      rw [if_neg idle] at one
      omega
    rw [if_pos writing] at one
    refine ⟨?_, ?_, ?_, h₄⟩
    · show m.readers = _
      rw [h₁]
      simp [insiders]
    · show 0 = _
      omega
    · intro writing
      cases writing

theorem Tally.handBack {under : Option Mode} (h : Tally m l under none) :
    Tally (m.handBack under) l none none := by
  cases under with
  | none => exact h
  | some mode => exact h.release

/-- A task no longer seeks the lock. -/
theorem Tally.withdraw (h : Tally m l none (some mode)) : Tally (m.withdraw mode) l none none := by
  obtain ⟨h₁, h₂, h₃, h₄⟩ := h
  cases mode with
  | shared => exact ⟨h₁, h₂, h₃, h₄⟩
  | exclusive =>
    refine Tally.of_core (m := { m with writersWaiting := m.writersWaiting - 1 }) ?_
      m.core_withdraw_exclusive
    refine ⟨h₁, h₂, h₃, ?_⟩
    show m.writersWaiting - 1 = _
    rw [h₄]
    simp

/-! ## A running task -/

theorem Goes.bracketed (h : Goes id m held p new m' held' p') (bracketed : p.Bracketed) :
    p'.Bracketed :=
  (h.kept (kept_within _ m.data) ⟨bracketed, .refl⟩).1

theorem Wakes.bracketed (h : Wakes id m t m' held p) (bracketed : t.plan.Bracketed) :
    p.Bracketed :=
  (h.kept (kept_within _ m.data) ⟨bracketed, .refl⟩).1

theorem Wakes.tally (h : Wakes id m t m' held p) (placed : t.Placed)
    (found : m.scene[id]? = some t.still) (tally : Tally m m.scene none none) :
    Tally m' (m'.others id) (running held p) none := by
  have before := tally.of_found found
  rw [h.others_eq]
  generalize m.others id = l at before ⊢
  have before : Tally m l t.point.held? t.point.sought? := before
  unfold Thread.Placed at placed
  cases h with
  | fresh point =>
    rw [point] at before
    exact before
  | again point _ free =>
    rw [point] at before placed
    have taken : Tally ((m.rise id).take _) l (some _) none :=
      Tally.take (m := m.rise id) (before.congr rfl rfl rfl) free
    rwa [running, if_pos rfl, placed]
  | withdraw point =>
    rw [point] at before
    exact Tally.withdraw (m := m.rise id) (before.congr rfl rfl rfl)
  | leave point =>
    rw [point] at before
    exact Tally.release (m := m.untell id) (before.congr rfl rfl rfl)
  | answered point =>
    rw [point] at before
    exact before.handBack
  | pass point =>
    rw [point] at before placed
    obtain ⟨next, plan⟩ := placed
    rw [running, if_pos rfl, plan]
    exact before.congr rfl rfl rfl
  | giveUp point =>
    rw [point] at before
    exact before.of_frame (m.frame_giveUp id)
  | drop point =>
    rw [point] at before
    exact before
  | unanswered point =>
    rcases point with point | ⟨turns, point⟩
    all_goals
      rw [point] at before
      exact before.handBack

/-- **A step of a running task** keeps the tally. -/
theorem Goes.tally (h : Goes id m held p new m' held' p') (bracketed : p.Bracketed)
    (tally : Tally m (m.others id) (running held p) none) :
    Tally m' (m'.others id) (running held' p') none := by
  rw [h.others_eq]
  generalize m.others id = l at tally ⊢
  cases h with
  | relinquish => exact bracketed.elim
  | @take mode _ wants free =>
    have free' : (m.arrive mode).admits mode = true := by cases mode <;> exact free
    rw [running, if_pos rfl, wants]
    exact (tally.arrive).take free'
  | shared => exact tally.release
  | exclusive => exact Tally.release (tally.congr rfl rfl rfl)
  | refused => exact tally.release
  | hold => exact Tally.release (tally.congr rfl rfl rfl)
  | _ => exact tally.congr rfl rfl rfl

theorem running_ask (under : Option Mode) {question : I.Question}
    (next : I.Answer question → Plan I σ ε α) :
    running under.isSome (.ask under question next) = under := by
  cases under <;> rfl

/-- A task that stops is counted where it stops. -/
theorem Stops.tally (h : Stops id m held p last) (found : m.scene[id]? = some t)
    (tally : Tally m (m.others id) (running held p) none) : Tally last last.scene none none := by
  have others := h.others_eq
  cases h with
  | @finish outcome =>
    have found' := (m.getElem?_scene_retire id outcome).trans (congrArg _ found)
    refine Tally.scene ?_ found'
    rw [others]
    exact tally.of_frame (m.frame_retire id outcome)
  | @ask held under question next has =>
    have found' := (m.getElem?_scene_park id (.asking under) (.ask under question next)).trans
      (congrArg _ found)
    refine Tally.scene ?_ found'
    rw [others]
    rw [has, running_ask] at tally
    exact tally.congr rfl rfl rfl
  | @sleep mode p =>
    have same : (m.arrive mode).scene[id]? = some t := by cases mode <;> exact found
    have found' := ((m.arrive mode).getElem?_scene_park id (.asleep mode) p).trans
      (congrArg _ same)
    refine Tally.scene ?_ found'
    rw [others]
    exact tally.arrive.congr rfl rfl rfl
  | @hold mode next =>
    have found' := (m.getElem?_scene_park id (.inside mode) (.hold mode next)).trans
      (congrArg _ found)
    refine Tally.scene ?_ found'
    rw [others]
    exact tally.congr rfl rfl rfl
  | @queue next =>
    have found' := (m.getElem?_scene_park id .atTurnstile (.serial next)).trans
      (congrArg _ found)
    refine Tally.scene ?_ found'
    rw [others]
    exact tally.congr rfl rfl rfl

theorem Stretch.tally (h : Stretch id m held p wrote last) (bracketed : p.Bracketed)
    (found : m.scene[id]? = some t) (tally : Tally m (m.others id) (running held p) none) :
    Tally last last.scene none none := by
  induction h generalizing t with
  | stop h => exact h.tally found tally
  | go h _ ih =>
    obtain ⟨serial, found⟩ := h.exists_found found
    exact ih (h.bracketed bracketed) found (h.tally bracketed tally)

theorem Turn.tally (h : Turn id m t wrote last) (bracketed : t.plan.Bracketed) (placed : t.Placed)
    (found : m.scene[id]? = some t.still) (tally : Tally m m.scene none none) :
    Tally last last.scene none none := by
  have others := h.others_eq
  have before : Tally m (m.others id) t.still.point.held? t.still.point.sought? :=
    tally.of_found found
  change Tally m (m.others id) t.point.held? t.point.sought? at before
  cases h with
  | goes wakes goes =>
    have found' := found
    rw [← wakes.scene_eq] at found'
    exact goes.tally (wakes.bracketed bracketed) found' (wakes.tally placed found tally)
  | @asleep mode point =>
    have found' := ((m.rise id).getElem?_scene_park id (.asleep mode) t.plan).trans
      (congrArg _ found)
    refine Tally.scene ?_ found'
    rw [others]
    rw [point] at before
    exact before.congr rfl rfl rfl
  | @later under turns point =>
    have found' := (m.getElem?_scene_awaitAnswer id under turns t.plan).trans (congrArg _ found)
    refine Tally.scene ?_ found'
    rw [others]
    rw [point] at before
    exact before.congr rfl rfl rfl
  | ended => exact tally

end

/-! ## A run -/

/-- Between moves, all waiting tasks are counted. -/
structure Guarded (m : Machine I σ ε α) : Prop where
  settled : m.Settled
  bracketed : m.Abides fun _ _ _ => True
  tally : Tally m m.scene none none

section

variable {m m' last : Machine I σ ε α} {id : Nat} {held : Bool} {p : Plan I σ ε α}
  {move : Move I σ ε α} {wrote : List Nat}

theorem guarded_initial (data : σ) : (initial data : Machine I σ ε α).Guarded :=
  ⟨settled_initial data, abides_initial data, rfl, rfl, fun _ => rfl, rfl⟩

/-- **A move keeps the counts of the lock**, if a new task gives back only what it takes. -/
theorem Guarded.step (h : m.Guarded) (goes : Step m move wrote last)
    (given : ∀ plan, move = .start plan → plan.Bracketed) : last.Guarded := by
  refine ⟨h.settled.step goes, (h.bracketed.step goes given).1, ?_⟩
  have bracketed := h.bracketed
  obtain ⟨settled, -, tally⟩ := h
  cases goes with
  | @start plan =>
    rw [scene_start]
    refine Tally.perm (l := _ :: m.scene) ?_ (List.perm_append_singleton _ _).symm
    exact tally_cons.2 (tally.congr rfl rfl rfl)
  | @turn id t _ _ _ found goes =>
    have found' := getElem?_scene_of_found found
    exact goes.tally (bracketed id t.still found') (settled.placed t.still (mem_scene found)) found'
      (tally.congr rfl rfl rfl)
  | nobody => exact tally.congr rfl rfl rfl
  | unready => exact tally
  | @cancel id =>
    rw [scene_of_core (m.core_cancel id)]
    exact tally.of_core (m.core_cancel id)
  | @tell id told =>
    rw [scene_of_core (m.core_tell id told)]
    exact tally.of_core (m.core_tell id told)
  | @reply id world under _ _ _ _ _ _ _ found _ goes =>
    have found' := getElem?_scene_of_found found
    refine goes.tally (bracketed id _ found' (world.answer _))
      (getElem?_scene_handBack_of_found found under) ?_
    rw [others_handBack]
    exact Tally.handBack (tally.of_found found')
  | @delay id world under _ _ _ _ _ turns found =>
    have found' := getElem?_scene_of_found found
    have before := tally.of_found found'
    refine Tally.scene ?_
      ((m.getElem?_scene_awaitAnswer id under turns _).trans (congrArg _ found'))
    rw [show (m.awaitAnswer id under turns _).others id = m.others id from others_modify ..]
    exact before.congr rfl rfl rfl
  | unasked => exact tally

theorem guarded_after (data : σ) (moves : List (Move I σ ε α))
    (bracketed : ∀ plan, .start plan ∈ moves → plan.Bracketed) :
    ((initial data).after moves).Guarded := by
  induction moves using List.reverseRecOn with
  | nil => exact guarded_initial data
  | append_singleton moves move ih =>
    rw [after_concat]
    have before : ((initial data).after moves).Guarded := by
      refine ih fun plan hplan => bracketed plan ?_
      exact List.mem_append_left _ hplan
    obtain ⟨wrote, goes⟩ := before.settled.exists_step move
    refine before.step goes fun plan hplan => bracketed plan ?_
    rw [hplan]
    exact List.mem_append_right _ (List.mem_singleton.2 rfl)

/-- The counts are kept at every point inside a move. -/
theorem Guarded.reaches (h : m.Guarded) (reaches : Reaches m id m' held p) :
    p.Bracketed ∧ Tally m' (m'.others id) (running held p) none := by
  induction reaches with
  | @turn t _ _ _ _ found wakes =>
    have found' := getElem?_scene_of_found found
    have bracketed : t.plan.Bracketed := h.bracketed id t.still found'
    refine ⟨wakes.bracketed bracketed, ?_⟩
    exact wakes.tally (h.settled.placed t.still (mem_scene found)) found'
      (h.tally.congr rfl rfl rfl)
  | reply world found =>
    have found' := getElem?_scene_of_found found
    refine ⟨h.bracketed id _ found' (world.answer _), ?_⟩
    rw [others_handBack]
    exact Tally.handBack (h.tally.of_found found')
  | goes _ goes ih => exact ⟨goes.bracketed ih.1, goes.tally ih.1 ih.2⟩

/-- A tally in which nobody seeks the lock beside the others is exact. -/
theorem Tally.exact {l : List (Thread I σ ε α)} {has : Option Mode} (h : Tally m l has none) :
    m.Exact l has := by
  obtain ⟨h₁, h₂, h₃, h₄⟩ := h
  have waiting : m.writersWaiting = seekers l .exclusive := by simpa using h₄
  by_cases writing : m.writing = true
  · rw [if_pos writing] at h₂
    have none_reads := h₃ writing
    exact ⟨h₁, by simp [writing, ← h₂], by omega, by omega, waiting⟩
  · rw [if_neg writing] at h₂
    exact ⟨h₁, by simp [writing, ← h₂], by omega, by omega, waiting⟩

theorem Exact.of_still {l : List (Thread I σ ε α)} {has : Option Mode}
    (h : m.Exact (l.map Thread.still) has) : m.Exact l has := by
  have counted (mode : Mode) : insiders (l.map Thread.still) has mode = insiders l has mode := by
    rw [insiders, List.countP_map]
    rfl
  have sought : seekers (l.map Thread.still) .exclusive = seekers l .exclusive := List.countP_map
  obtain ⟨h₁, h₂, h₃, h₄, h₅⟩ := h
  simp only [counted, sought] at h₁ h₂ h₃ h₄ h₅
  exact ⟨h₁, h₂, h₃, h₄, h₅⟩

end

/-- **The lock is safe.**  Tasks start, run, are cancelled, told and answered in any order,
and none gives back a lock that it does not have.  Then at every point, between moves and
inside them, there are as many readers as tasks that hold the lock shared, there is a
writer if and only if one task holds it exclusively, readers and writers exclude each
other, and as many writers are counted as waiting as wait. -/
theorem exact_of_moves (data : σ) (moves : List (Move I σ ε α))
    (bracketed : ∀ plan, .start plan ∈ moves → plan.Bracketed) :
    ((initial data).after moves).Exact ((initial data).after moves).threads none ∧
      ∀ id m' held p, ((initial data).after moves).Reaches id m' held p →
        m'.Exact (m'.threads.eraseIdx id) (running held p) := by
  have guarded := guarded_after data moves bracketed
  refine ⟨guarded.tally.exact.of_still, fun id m' held p reaches => ?_⟩
  have exact := (guarded.reaches reaches).2.exact
  rw [others, scene, List.eraseIdx_map] at exact
  exact exact.of_still

/-- A reader is cancelled while it holds the lock, so that a writer that has waited for it
takes the lock, and another one waits. -/
theorem exact_of_moves_writers :
    let moves : List (Move Interface.silent Unit Empty Unit) :=
      [.start (.occupy .shared), .turn 0, .start (.occupy .exclusive), .turn 1,
        .start (.occupy .exclusive), .turn 2, .cancel 0, .turn 0, .turn 1, .turn 2]
    let m := (initial ()).after moves
    (∀ plan, .start plan ∈ moves → plan.Bracketed) ∧ m.writing = true ∧ m.writersWaiting = 1 ∧
      m.Exact m.threads none := by
  intro moves m
  have bracketed : ∀ plan, .start plan ∈ moves → plan.Bracketed := by
    intro plan hplan
    simp only [moves, List.mem_cons, Move.start.injEq, reduceCtorEq, List.not_mem_nil, or_false,
      false_or] at hplan
    rcases hplan with rfl | rfl | rfl
    all_goals exact fun _ => trivial
  exact ⟨bracketed, by decide +kernel, by decide +kernel, (exact_of_moves () moves bracketed).1⟩

end Machine

end SignedOrders.Tasks
