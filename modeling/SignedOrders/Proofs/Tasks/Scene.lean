import Mathlib.Data.List.Perm.Basic
import SignedOrders.Tasks.Machine

/-!
# Machines as they stand

Waking a task changes how its waiting stands and who is ready, and nothing else: the
**core** of the machine stays (`core_awaken`).  What is shown of the lock and of the plans
of tasks is about the core, so that it does not matter who is woken.

Of the core, a task that moves changes its own part and what tasks share.  The other tasks
stand as they stood (`others`), and what a task does at the turnstile leaves the **frame**:
the data, the lock and the gate.

Between moves nobody is at the gate.  A running task then passes it at once, takes the lock
if it is admitted, and gives it back without waiting (`knock_eq`, `letGo_eq`, `goBack_eq`).
-/

namespace SignedOrders.Tasks

variable {I : Interface} {σ ε α : Type}

/-- A task without how its waiting stands and what it has been told. -/
def Thread.still (t : Thread I σ ε α) : Thread I σ ε α := { t with wake := .pending, told := none }

namespace Machine

/-- The tasks as they stand. -/
def scene (m : Machine I σ ε α) : List (Thread I σ ε α) := m.threads.map Thread.still

/-- The tasks but one as they stand. -/
def others (m : Machine I σ ε α) (id : Nat) : List (Thread I σ ε α) := m.scene.eraseIdx id

/-- The machine without how waiting stands, without who is ready, and without the log. -/
def core (m : Machine I σ ε α) : Machine I σ ε α :=
  { m with threads := m.scene, ready := [], log := [] }

/-- The machine without its tasks and the turnstile. -/
def frame (m : Machine I σ ε α) : Machine I σ ε α :=
  { m.core with threads := [], turnstile := ⟨false, []⟩ }

variable (m : Machine I σ ε α) (id : Nat) (mode : Mode)

/-! ## One task changes -/

theorem getElem?_modify_self (f : Thread I σ ε α → Thread I σ ε α) :
    (m.modify id f).threads[id]? = (m.threads[id]?).map f := by
  simp [modify]

theorem getElem?_modify_of_ne {id other : Nat} (hne : other ≠ id)
    (f : Thread I σ ε α → Thread I σ ε α) :
    (m.modify id f).threads[other]? = m.threads[other]? := by
  simp [modify, hne.symm]

theorem length_modify (f : Thread I σ ε α → Thread I σ ε α) :
    (m.modify id f).threads.length = m.threads.length :=
  List.length_modify ..

theorem getElem?_scene (id : Nat) : m.scene[id]? = (m.threads[id]?).map Thread.still :=
  List.getElem?_map

theorem length_scene : m.scene.length = m.threads.length := List.length_map _

theorem scene_start (plan : Plan I σ ε α) :
    (m.start plan).scene = m.scene ++ [⟨plan, .fresh, .pending, none, false⟩] :=
  List.map_append

theorem getElem?_start_of_found {m : Machine I σ ε α} {i : Nat} {t : Thread I σ ε α}
    (found : m.threads[i]? = some t) (plan : Plan I σ ε α) :
    (m.start plan).threads[i]? = some t :=
  (List.getElem?_append_left (List.getElem?_eq_some_iff.1 found).1).trans found

/-- After a start a task is an old one, or the new one. -/
theorem found_start_cases {m : Machine I σ ε α} {i : Nat} {t : Thread I σ ε α}
    {plan : Plan I σ ε α} (found : (m.start plan).threads[i]? = some t) :
    m.threads[i]? = some t ∨
      i = m.threads.length ∧ t = ⟨plan, .fresh, .granted, none, false⟩ := by
  rw [start, List.getElem?_append] at found
  split at found
  · exact .inl found
  · rw [List.getElem?_singleton] at found
    split at found
    · exact .inr ⟨by omega, (Option.some.inj found).symm⟩
    · cases found

theorem getElem?_scene_of_found {m : Machine I σ ε α} {id : Nat} {t : Thread I σ ε α}
    (found : m.threads[id]? = some t) : m.scene[id]? = some t.still := by
  rw [getElem?_scene, found]
  rfl

theorem mem_scene {m : Machine I σ ε α} {id : Nat} {t : Thread I σ ε α}
    (found : m.threads[id]? = some t) : t.still ∈ m.scene :=
  List.mem_map_of_mem (List.mem_of_getElem? found)

/-- A task and the others are all tasks. -/
theorem scene_perm {m : Machine I σ ε α} {id : Nat} {t : Thread I σ ε α}
    (found : m.scene[id]? = some t) : (t :: m.others id).Perm m.scene := by
  obtain ⟨present, rfl⟩ := List.getElem?_eq_some_iff.1 found
  exact List.getElem_cons_eraseIdx_perm present

theorem getElem?_scene_modify {f g : Thread I σ ε α → Thread I σ ε α}
    (hf : ∀ t, (f t).still = g t.still) :
    (m.modify id f).scene[id]? = (m.scene[id]?).map g := by
  rw [getElem?_scene, getElem?_scene, getElem?_modify_self, Option.map_map, Option.map_map]
  exact Option.map_congr fun t _ => hf t

theorem getElem?_scene_park (point : Point ε α) (plan : Plan I σ ε α) :
    (m.park id point plan).scene[id]? = (m.scene[id]?).map fun t => { t with plan, point } :=
  m.getElem?_scene_modify id fun _ => rfl

theorem getElem?_scene_awaitAnswer (under : Option Mode) (turns : Nat) (plan : Plan I σ ε α) :
    (m.awaitAnswer id under turns plan).scene[id]? =
      (m.scene[id]?).map fun t => { t with plan, point := .answered under turns } :=
  m.getElem?_scene_modify id fun _ => rfl

theorem others_modify (f : Thread I σ ε α → Thread I σ ε α) :
    (m.modify id f).others id = m.others id := by
  unfold others
  refine List.ext_getElem? fun j => ?_
  rw [List.getElem?_eraseIdx, List.getElem?_eraseIdx]
  split
  · rw [getElem?_scene, getElem?_scene, getElem?_modify_of_ne m (by omega)]
  · rw [getElem?_scene, getElem?_scene, getElem?_modify_of_ne m (by omega)]

/-- A task among the others stands as it stood. -/
theorem getElem?_of_others {m last : Machine I σ ε α} {id other : Nat}
    (same : last.others id = m.others id) (hne : other ≠ id) :
    last.scene[other]? = m.scene[other]? := by
  unfold others at same
  by_cases before : other < id
  · have h := congrArg (·[other]?) same
    rwa [List.getElem?_eraseIdx, List.getElem?_eraseIdx, if_pos before, if_pos before] at h
  · have h := congrArg (·[other - 1]?) same
    rwa [List.getElem?_eraseIdx, List.getElem?_eraseIdx, if_neg (by omega), if_neg (by omega),
      show other - 1 + 1 = other by omega] at h

theorem scene_modify_of_still {f : Thread I σ ε α → Thread I σ ε α}
    (hf : ∀ t, (f t).still = t.still) : (m.modify id f).scene = m.scene := by
  unfold scene modify
  refine List.ext_getElem? fun j => ?_
  rw [List.getElem?_map, List.getElem?_map, List.getElem?_modify]
  cases m.threads[j]? with
  | none => split <;> rfl
  | some t =>
    split
    · exact congrArg some (hf t)
    · rfl

theorem core_modify_of_still {f : Thread I σ ε α → Thread I σ ε α}
    (hf : ∀ t, (f t).still = t.still) : (m.modify id f).core = m.core := by
  show { m.core with threads := (m.modify id f).scene } = { m.core with threads := m.scene }
  rw [m.scene_modify_of_still id hf]

theorem scene_of_core {m last : Machine I σ ε α} (same : last.core = m.core) :
    last.scene = m.scene := by
  show last.core.threads = m.core.threads
  rw [same]

/-! ## What keeps the core -/

theorem core_awaken : (m.awaken id).core = m.core := by
  unfold awaken
  split
  · exact m.core_modify_of_still id (f := fun t => { t with wake := .granted }) fun _ => rfl
  · rfl

theorem core_foldl_awaken (ids : List Nat) : (ids.foldl awaken m).core = m.core := by
  induction ids generalizing m with
  | nil => rfl
  | cons id ids ih => rw [List.foldl_cons, ih, core_awaken]

theorem core_awakenSleepers : m.awakenSleepers.core = m.core := m.core_foldl_awaken m.sleepers

theorem core_callNext (door : Door) : (m.callNext door).core = m.core := by
  unfold callNext
  split
  · rfl
  · exact m.core_awaken _

theorem core_cancel : (m.cancel id).core = m.core := by
  unfold cancel
  split
  · rfl
  · split
    · rfl
    · exact m.core_modify_of_still id fun _ => rfl
    · exact m.core_modify_of_still id fun _ => rfl
    · rfl

theorem core_tell (told : Outcome ε Unit) : (m.tell id told).core = m.core := by
  have same := m.core_modify_of_still id (f := fun t => { t with told := t.told.or (some told) })
    fun _ => rfl
  unfold tell
  dsimp only
  split
  · rw [core_awaken, same]
  · exact same

/-! ## The lock -/

theorem core_release_shared :
    (m.release .shared).core = { m.core with readers := m.readers - 1 } := by
  unfold release
  dsimp only
  split
  · exact core_awakenSleepers _
  · rfl

theorem core_release_exclusive :
    (m.release .exclusive).core = { m.core with writing := false } :=
  core_awakenSleepers _

theorem core_withdraw_exclusive :
    (m.withdraw .exclusive).core = { m.core with writersWaiting := m.writersWaiting - 1 } :=
  core_awakenSleepers _

theorem scene_release : (m.release mode).scene = m.scene := by
  show (m.release mode).core.threads = m.core.threads
  cases mode with
  | shared => rw [core_release_shared]
  | exclusive => rw [core_release_exclusive]

theorem scene_withdraw : (m.withdraw mode).scene = m.scene := by
  cases mode with
  | shared => rfl
  | exclusive =>
    show (m.withdraw .exclusive).core.threads = m.core.threads
    rw [core_withdraw_exclusive]

theorem gate_release : (m.release mode).gate = m.gate := by
  show (m.release mode).core.gate = m.core.gate
  cases mode with
  | shared => rw [core_release_shared]
  | exclusive => rw [core_release_exclusive]

theorem gate_withdraw : (m.withdraw mode).gate = m.gate := by
  cases mode with
  | shared => rfl
  | exclusive =>
    show (m.withdraw .exclusive).core.gate = m.core.gate
    rw [core_withdraw_exclusive]

theorem others_release : (m.release mode).others id = m.others id := by
  unfold others
  rw [scene_release]

/-- The machine after a task has given the lock back, if it has it. -/
def handBack : Option Mode → Machine I σ ε α
  | none => m
  | some mode => m.release mode

theorem scene_handBack (under : Option Mode) : (m.handBack under).scene = m.scene := by
  cases under with
  | none => rfl
  | some mode => exact m.scene_release mode

theorem getElem?_scene_handBack_of_found {m : Machine I σ ε α} {id : Nat}
    {t : Thread I σ ε α} (found : m.threads[id]? = some t) (under : Option Mode) :
    (m.handBack under).scene[id]? = some t.still := by
  rw [scene_handBack]
  exact getElem?_scene_of_found found

theorem gate_handBack (under : Option Mode) : (m.handBack under).gate = m.gate := by
  cases under with
  | none => rfl
  | some mode => exact m.gate_release mode

theorem others_handBack (under : Option Mode) :
    (m.handBack under).others id = m.others id := by
  unfold others
  rw [scene_handBack]

/-! ## The turnstile, and the end of a task -/

theorem frame_leaveDoor : (m.leaveDoor .turnstile).frame = m.frame := by
  unfold leaveDoor frame
  rw [core_callNext]
  rfl

theorem frame_giveUp : (m.giveUp .turnstile id).frame = m.frame := by
  unfold giveUp
  dsimp only
  split
  · rfl
  · unfold frame
    rw [core_callNext]
    rfl

theorem scene_leaveDoor (door : Door) : (m.leaveDoor door).scene = m.scene := by
  show (m.leaveDoor door).core.threads = m.core.threads
  unfold leaveDoor
  rw [core_callNext]
  cases door <;> rfl

theorem scene_giveUp (door : Door) : (m.giveUp door id).scene = m.scene := by
  have quit : (m.quitQueue door id).scene = m.scene := by cases door <;> rfl
  unfold giveUp
  dsimp only
  split
  · exact quit
  · show ((m.quitQueue door id).callNext door).core.threads = m.scene
    rw [core_callNext]
    exact quit

/-- The machine after a task in the turnstile has let it go, if it was in it. -/
def vacate : Machine I σ ε α :=
  if ((m.threads[id]?).map (·.serial)).getD false then m.leaveDoor .turnstile else m

theorem retire_eq_vacate (outcome : Outcome ε α) :
    m.retire id outcome =
      ((m.vacate id).modify id fun t =>
        { t with plan := .finish outcome, point := .ended outcome, wake := .granted,
                 serial := false }).report id (.ended outcome) := rfl

theorem frame_vacate : (m.vacate id).frame = m.frame := by
  unfold vacate
  split
  · exact m.frame_leaveDoor
  · rfl

theorem scene_vacate : (m.vacate id).scene = m.scene := by
  unfold vacate
  split
  · exact m.scene_leaveDoor .turnstile
  · rfl

theorem frame_retire (outcome : Outcome ε α) : (m.retire id outcome).frame = m.frame :=
  m.frame_vacate id

theorem gate_retire (outcome : Outcome ε α) : (m.retire id outcome).gate = m.gate := by
  show (m.retire id outcome).frame.gate = m.frame.gate
  rw [frame_retire]

theorem others_retire (outcome : Outcome ε α) : (m.retire id outcome).others id = m.others id := by
  rw [retire_eq_vacate]
  show ((m.vacate id).modify id _).others id = _
  rw [others_modify]
  unfold others
  rw [scene_vacate]

theorem getElem?_scene_retire (outcome : Outcome ε α) :
    (m.retire id outcome).scene[id]? = (m.scene[id]?).map fun t =>
      { t with plan := .finish outcome, point := .ended outcome, serial := false } := by
  rw [← m.scene_vacate id]
  exact (m.vacate id).getElem?_scene_modify id fun _ => rfl

/-! ## The gate -/

/-- A task falls asleep until the lock may be free for it. -/
def sleep (plan : Plan I σ ε α) : Machine I σ ε α :=
  { m with sleepers := m.sleepers ++ [id] }.park id (.asleep mode) plan

theorem awaken_setPassage (door : Door) (p : Passage) :
    (m.setPassage door p).awaken id = (m.awaken id).setPassage door p := by
  have same : (m.setPassage door p).wakeOf id = m.wakeOf id := by cases door <;> rfl
  unfold awaken
  rw [same]
  split
  · cases door <;> rfl
  · rfl

theorem foldl_awaken_setPassage (door : Door) (p : Passage) (ids : List Nat) :
    ids.foldl awaken (m.setPassage door p) = (ids.foldl awaken m).setPassage door p := by
  induction ids generalizing m with
  | nil => rfl
  | cons id ids ih => rw [List.foldl_cons, List.foldl_cons, awaken_setPassage, ih]

/-- It does not matter for giving back the lock who is at the gate. -/
theorem release_setPassage (p : Passage) :
    (m.setPassage .gate p).release mode = (m.release mode).setPassage .gate p := by
  cases mode with
  | shared =>
    show (if m.readers - 1 = 0 then _ else _) = setPassage (if m.readers - 1 = 0 then _ else _) _ _
    split
    · exact foldl_awaken_setPassage { m with readers := m.readers - 1 } .gate p m.sleepers
    · rfl
  | exclusive => exact foldl_awaken_setPassage { m with writing := false } .gate p m.sleepers

theorem withdraw_setPassage (p : Passage) :
    (m.setPassage .gate p).withdraw mode = (m.withdraw mode).setPassage .gate p := by
  cases mode with
  | shared => rfl
  | exclusive =>
    exact foldl_awaken_setPassage { m with writersWaiting := m.writersWaiting - 1 } .gate p
      m.sleepers

section

variable {m} (free : m.gate = ⟨false, []⟩)

include free

theorem isOpen_gate : m.isOpen .gate = true := by
  unfold isOpen passage
  rw [free]
  rfl

theorem leaveDoor_gate : (m.occupyDoor .gate).leaveDoor .gate = m := by
  obtain ⟨data, readers, writing, writersWaiting, sleepers, gate, turnstile, threads, ready,
    log⟩ := m
  cases free
  rfl

/-- A task in the gate takes the lock if it is admitted, and else falls asleep. -/
theorem tryTake_eq (plan : Plan I σ ε α) :
    (m.occupyDoor .gate).tryTake mode id plan =
      if m.admits mode then (m.take mode, true) else (m.sleep id mode plan, false) := by
  unfold tryTake
  rw [leaveDoor_gate free]
  have taken : ((m.occupyDoor .gate).take mode).leaveDoor .gate = m.take mode := by
    have free : (m.take mode).gate = ⟨false, []⟩ := by cases mode <;> exact free
    rw [show (m.occupyDoor .gate).take mode = (m.take mode).occupyDoor .gate by cases mode <;> rfl,
      leaveDoor_gate free]
  rw [taken, show (m.occupyDoor .gate).admits mode = m.admits mode by cases mode <;> rfl]
  rfl

theorem knock_eq (plan : Plan I σ ε α) :
    m.knock mode id plan =
      if m.admits mode then ((m.arrive mode).take mode, true)
      else ((m.arrive mode).sleep id mode plan, false) := by
  have free' : (m.arrive mode).gate = ⟨false, []⟩ := by cases mode <;> exact free
  unfold knock
  rw [isOpen_gate free, if_pos rfl,
    show (m.occupyDoor .gate).arrive mode = (m.arrive mode).occupyDoor .gate by cases mode <;> rfl,
    tryTake_eq id mode free',
    show (m.arrive mode).admits mode = m.admits mode by cases mode <;> rfl]

theorem letGo_eq (rest : Plan I σ ε α) : m.letGo mode id rest = (m.release mode, true) := by
  have free' : (m.release mode).gate = ⟨false, []⟩ := (m.gate_release mode).trans free
  unfold letGo
  rw [isOpen_gate free, if_pos rfl]
  have released : (m.occupyDoor .gate).release mode = (m.release mode).occupyDoor .gate := by
    rw [occupyDoor, occupyDoor, release_setPassage]
    show setPassage _ _ ⟨true, m.gate.queue⟩ = setPassage _ _ ⟨true, (m.release mode).gate.queue⟩
    rw [gate_release]
  rw [released, leaveDoor_gate free']

/-- A task gives the lock back, if it has it, before it goes on. -/
theorem goOn_eq (under : Option Mode) (rest : Plan I σ ε α) :
    m.goOn under id rest = (m.handBack under).follow id false rest := by
  cases under with
  | none => rfl
  | some mode =>
    rw [goOn, departWith, letGo_eq id mode free]
    rfl

/-- A task that has slept looks again, or gives up if it was cancelled. -/
theorem goBack_eq (interrupted : Bool) (plan : Plan I σ ε α) :
    m.goBack mode id interrupted plan =
      if interrupted then (m.withdraw mode).retire id .cancelled
      else if m.admits mode then (m.take mode).follow id true plan
      else m.sleep id mode plan := by
  have free' : (m.withdraw mode).gate = ⟨false, []⟩ := (m.gate_withdraw mode).trans free
  unfold goBack comeBack
  rw [isOpen_gate free, if_pos rfl, tryTake_eq id mode free]
  have withdrawn : (m.occupyDoor .gate).withdraw mode = (m.withdraw mode).occupyDoor .gate := by
    rw [occupyDoor, occupyDoor, withdraw_setPassage]
    show setPassage _ _ ⟨true, m.gate.queue⟩ = setPassage _ _ ⟨true, (m.withdraw mode).gate.queue⟩
    rw [gate_withdraw]
  rw [withdrawn, leaveDoor_gate free']
  cases interrupted with
  | true => rfl
  | false =>
    rw [if_neg Bool.false_ne_true, if_neg Bool.false_ne_true]
    cases m.admits mode <;> rfl

end

end Machine

end SignedOrders.Tasks
