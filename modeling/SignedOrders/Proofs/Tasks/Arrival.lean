import Mathlib.Data.List.Sort
import SignedOrders.Proofs.Tasks.Demands

/-!
# Writers first, in the order of arrival

A task that comes to read goes in only when no writer is inside or waits, at every point of
every run (`Reaches.admits`, `Guarded.unopposed`).

When each demand is followed until nothing can move, no task goes in before a writer that came
earlier.  When no writer is left inside or waiting, all sleepers are readers and all of them have
been woken (`InLine.freed`).  They go in one after another, in the order of the line, since a
reader leaves the lock open to the next one when it goes in, and also when it comes out again at
once (`InLine.enter`).
-/

namespace SignedOrders.Tasks

variable {I : Interface} {σ ε α : Type}

namespace Machine

/-- The tasks that wait for the lock, in the order of their arrival. -/
def waiters (m : Machine I σ ε α) (mode : Mode) : List Nat :=
  (List.range m.threads.length).filter fun id => (m.pointOf? id).bind Point.sought? = some mode

/-- What is heard of a task that is admitted: it goes in, and out again if it was told to. -/
def visit (m : Machine I σ ε Unit) (id : Nat) : List (Nat × Notice ε Unit) :=
  (id, .acquired) :: (m.toldOf id).toList.map fun told => (id, .ended told)

/-- Where a reader is that was admitted. -/
def visited (m : Machine I σ ε Unit) (id : Nat) : Point ε Unit :=
  (m.toldOf id).elim (.inside .shared) .ended

/-! ## Readers and writers -/

section

variable {m m' : Machine I σ ε α} {id : Nat} {p : Plan I σ ε α}

/-- **A reader that has just gone in was admitted**, and others would still be. -/
theorem Reaches.admits (h : m.Reaches id m' true p) (settled : m.Settled)
    (reads : p.wants? = some .shared) : m'.admits .shared = true := by
  cases h with
  | @turn t _ _ _ _ found wakes =>
    have placed : t.Placed := settled.placed t.still (mem_scene found)
    unfold Thread.Placed at placed
    cases wakes with
    | again point called free =>
      rw [point] at placed
      cases placed.symm.trans reads
      exact free
    | pass point =>
      rw [point] at placed
      obtain ⟨next, plan⟩ := placed
      rw [plan] at reads
      cases reads
  | goes _ goes =>
    cases goes with
    | take wants free =>
      cases wants.symm.trans reads
      exact free
    | pass => cases reads

/-- **No reader goes in while a writer is inside or waits.** -/
theorem Guarded.unopposed (h : m.Guarded) (reaches : m.Reaches id m' true p)
    (reads : p.wants? = some .shared) : Free (m'.threads.eraseIdx id) .shared := by
  have exact := (h.reaches reaches).2.exact
  rw [others, scene, List.eraseIdx_map, running, if_pos rfl, reads] at exact
  obtain ⟨-, writing, one_writer, -, waiting⟩ := exact.of_still
  have admits := reaches.admits h.settled reads
  simp only [Machine.admits, Bool.and_eq_true, Bool.not_eq_true', beq_iff_eq] at admits
  obtain ⟨idle, unsought⟩ := admits
  refine ⟨?_, by omega⟩
  -- the one that goes in is a reader itself, and does not count among the writers
  have nobody : insiders (m'.threads.eraseIdx id) (some .shared) .exclusive ≠ 1 := by
    intro one
    cases idle.symm.trans (writing.2 one)
  exact Nat.lt_one_iff.1 (Nat.lt_of_le_of_ne one_writer nobody)

end

section

variable {m last : Machine I σ ε Unit} {modes : List Mode} {id x : Nat} {mode : Mode}
  {t : Thread I σ ε Unit} {demand : Demand ε} {how : Outcome ε Unit} {world : World I}

/-! ## A reader that is admitted -/

theorem admits_release_shared (m : Machine I σ ε α) :
    (m.release .shared).admits .shared = m.admits .shared := by
  show (m.release .shared).core.admits .shared = m.core.admits .shared
  rw [core_release_shared]
  rfl

/-- A reader leaves the lock open to readers when it goes in, and when it comes out. -/
theorem Looks.admits (h : Looks id .shared m last) :
    last.admits .shared = m.admits .shared := by
  cases h with
  | sleeps => rfl
  | stays => rfl
  | leaves => exact (admits_of_frame (frame_retire ..)).trans (admits_release_shared _)

/-- A reader that is admitted goes in, and out again if it was told to. -/
theorem Looks.visit (h : Looks id .shared m last) (facing : m.Facing modes id .shared)
    (found : m.threads[id]? = some t) (free : m.admits .shared = true) :
    last.sleepers = m.sleepers ∧ last.log = m.log ++ m.visit id ∧
      last.pointOf? id = some (m.visited id) := by
  unfold Machine.visit visited
  cases h with
  | sleeps busy => cases free.symm.trans busy
  | stays _ untold =>
    rw [untold]
    refine ⟨rfl, rfl, ?_⟩
    rw [pointOf?, park, getElem?_modify_self]
    exact congrArg _ (congrArg _ found)
  | @leaves told _ heard =>
    have recounts := recounts_release (m.seize id .shared) .shared
    obtain ⟨-, sleepers, log⟩ := lists_retire facing.queue_release id told
    have present : ((m.seize id .shared).release .shared).scene[id]? =
        some (Thread.still { t with told := none }) := by
      rw [scene_release]
      refine getElem?_scene_of_found ((getElem?_modify_self _ id _).trans ?_)
      rw [show ((m.take .shared).report id .acquired).threads[id]? = some t from found]
      rfl
    rw [heard, sleepers, log, recounts.sleepers, recounts.log, pointOf?_eq, getElem?_scene_retire,
      present]
    exact ⟨sleepers_seize .., List.append_assoc .., rfl⟩

/-! ## When no writer is left -/

theorem mem_waiters {m : Machine I σ ε α} :
    id ∈ m.waiters mode ↔ ∃ t, m.threads[id]? = some t ∧ t.point.sought? = some mode := by
  unfold waiters pointOf?
  rw [List.mem_filter, List.mem_range, decide_eq_true_eq]
  constructor
  · rintro ⟨present, seeks⟩
    rw [List.getElem?_eq_getElem present] at seeks
    exact ⟨_, List.getElem?_eq_getElem present, seeks⟩
  · rintro ⟨t, found, seeks⟩
    refine ⟨(List.getElem?_eq_some_iff.1 found).1, ?_⟩
    rw [found]
    exact seeks

/-- All sleepers are readers when the lock admits readers. -/
theorem InLine.reader_of_admits (h : m.InLine modes) (free : m.admits .shared = true)
    (sleeps : x ∈ m.sleepers) :
    modes[x]? = some .shared ∧ ∃ t, m.threads[x]? = some t ∧ t.point = .asleep .shared := by
  obtain ⟨-, unsought⟩ := h.steady.guarded.tally.exact.of_still.admits_iff.1 free
  obtain ⟨mode, t, mine, found, -, point, -⟩ := h.exists_sleeper sleeps
  cases mode with
  | shared => exact ⟨mine, t, found, point⟩
  | exclusive =>
    have sought := List.countP_eq_zero.1 unsought t (List.mem_of_getElem? found)
    simp [point, Point.sought?] at sought

/-- All sleepers are ready when the lock admits readers. -/
theorem InLine.ready_of_admits (h : m.InLine modes) (free : m.admits .shared = true) :
    m.ready = m.sleepers := by
  obtain ⟨again, sleepers, -⟩ := h.line
  have looked : again = [] := by
    refine List.eq_nil_iff_forall_not_mem.2 fun x hx => ?_
    have sleeps : x ∈ m.sleepers := sleepers ▸ List.mem_append_right _ hx
    obtain ⟨-, t, found, point⟩ := h.reader_of_admits free sleeps
    -- one that has looked would be refused, and a reader is not
    have away : x ∉ m.ready := by
      have distinct := h.steady.orderly.sleepers_nodup
      rw [sleepers] at distinct
      exact fun ready => List.disjoint_of_nodup_append distinct ready hx
    have pending : t.wake = .pending :=
      h.steady.pending found (fun outcome ended => nomatch point.symm.trans ended) away
    cases free.symm.trans (h.steady.alert.refused x t .shared nofun found point pending)
  rw [sleepers, looked, List.append_nil]

/-- A task that ends leaves the lock to the others. -/
theorem Departs.admits (departs : m.Departs id last) (found : m.threads[id]? = some t)
    (steady : (last.retire id how).Steady) (free : Free (m.threads.eraseIdx id) mode) :
    (last.retire id how).admits mode = true := by
  have present : id < last.scene.length := by
    rw [length_scene, departs.stirs.length_eq]
    exact (List.getElem?_eq_some_iff.1 found).1
  have ended := (last.getElem?_scene_retire id how).trans
    (congrArg _ (List.getElem?_eq_getElem present))
  have tally : Tally (last.retire id how) ((last.retire id how).others id) none none :=
    steady.guarded.tally.of_found ended
  rw [others_retire, departs.others, Machine.others, Machine.scene, List.eraseIdx_map] at tally
  exact tally.exact.of_still.admits_iff.2 free

/-- A task that ends in the line does not want to read, or the readers were not kept out. -/
theorem InLine.not_reader (h : m.InLine modes) (rest : m.ready = [])
    (free : Free (m.threads.eraseIdx id) .shared) (found : m.threads[id]? = some t) :
    t.point.sought? ≠ some .shared := by
  intro seeks
  obtain ⟨present, rfl⟩ := List.getElem?_eq_some_iff.1 found
  have asleep := h.steady.guarded.settled.asleep found seeks
  have perm := List.getElem_cons_eraseIdx_perm present
  have all_free : Free m.threads .shared := by
    obtain ⟨idle, unsought⟩ := free
    unfold insiders at idle
    unfold seekers at unsought
    constructor
    · rw [insiders, ← perm.countP_eq, List.countP_cons, asleep]
      exact idle
    · rw [seekers, ← perm.countP_eq, List.countP_cons, asleep]
      exact unsought
  have refused := h.steady.refused rest found seeks
  rw [h.steady.guarded.tally.exact.of_still.admits_iff.2 all_free] at refused
  cases refused

/-- **When no writer is left, all readers that wait have been woken**, and nobody else. -/
theorem InLine.freed (h : m.InLine modes) (rest : m.ready = []) (departs : m.Departs id last)
    (found : m.threads[id]? = some t) (inLine : (last.retire id how).InLine modes)
    (free : Free (m.threads.eraseIdx id) .shared) :
    (last.retire id how).ready = m.sleepers.erase id ∧
      ∀ x, x ∈ m.sleepers.erase id ↔ x ∈ m.waiters .shared := by
  have admits := departs.admits found inLine.steady free
  have sleepers : (last.retire id how).sleepers = m.sleepers.erase id :=
    (lists_retire departs.queue id how).2.1.trans departs.sleepers
  refine ⟨(inLine.ready_of_admits admits).trans sleepers, fun x => ?_⟩
  rw [h.steady.orderly.sleepers_nodup.mem_erase_iff, mem_waiters]
  constructor
  · rintro ⟨other, sleeps⟩
    obtain ⟨_, t, mine, found, -, point, -⟩ := h.exists_sleeper sleeps
    have sleeps : x ∈ (last.retire id how).sleepers :=
      sleepers ▸ (List.mem_erase_of_ne other).2 sleeps
    cases mine.symm.trans (inLine.reader_of_admits admits sleeps).1
    exact ⟨t, found, by rw [point]; rfl⟩
  · rintro ⟨u, found', seeks⟩
    refine ⟨?_, h.steady.alert.booked.listed x u .shared nofun found'
      (h.steady.guarded.settled.asleep found' seeks)⟩
    rintro rfl
    exact h.not_reader rest free found' seeks

/-- A reader that is woken goes in, and leaves the lock open to the next. -/
theorem InLine.enter (h : m.InLine modes) {rest : List Nat} (ready : m.ready = x :: rest)
    (free : m.admits .shared = true) :
    m.run.admits .shared = true ∧ m.run.ready = rest ∧ m.run.log = m.log ++ m.visit x ∧
      m.run.pointOf? x = some (m.visited x) ∧
      ∀ i, i ≠ x → m.run.pointOf? i = m.pointOf? i ∧ m.run.toldOf i = m.toldOf i := by
  have sleepers : m.sleepers = x :: rest := (h.ready_of_admits free).symm.trans ready
  obtain ⟨mine, t, found, -⟩ := h.reader_of_admits free (sleepers ▸ List.mem_cons_self)
  have looks := h.looks ready mine
  have facing := h.facing ready mine
  have free' : m.run.admits .shared = true := looks.admits.trans free
  obtain ⟨sleepers', log, inside⟩ := looks.visit facing found free
  refine ⟨free', ?_, log, inside, fun i other => ?_⟩
  · rw [(h.run ready).ready_of_admits free', sleepers']
    show m.sleepers.erase x = rest
    rw [sleepers, List.erase_cons_head]
  · exact ⟨(looks.stirs facing).pointOf?_eq other, (looks.stirs facing).toldOf_eq other⟩

/-- **All readers that are woken go in**, one after another. -/
theorem InLine.enter_all {fuel : Nat} (world : World I) (h : m.InLine modes)
    (free : m.admits .shared = true) (enough : m.ready.length ≤ fuel) :
    (Machine.settle world fuel m).log = m.log ++ m.ready.flatMap m.visit ∧
      ∀ r, (Machine.settle world fuel m).pointOf? r =
        if r ∈ m.ready then some (m.visited r) else m.pointOf? r := by
  induction fuel generalizing m with
  | zero =>
    have rest : m.ready = [] := List.eq_nil_of_length_eq_zero (Nat.le_zero.1 enough)
    rw [rest]
    exact ⟨(List.append_nil _).symm, fun r => (if_neg List.not_mem_nil).symm⟩
  | succ fuel ih =>
    rw [Machine.settle, asker?_eq_none h.registered.silent]
    dsimp only
    cases ready : m.ready with
    | nil => exact ⟨(List.append_nil _).symm, fun r => (if_neg List.not_mem_nil).symm⟩
    | cons x rest =>
      obtain ⟨free', ready', log, inside, others⟩ := h.enter ready free
      rw [ready, List.length_cons] at enough
      obtain ⟨later, stand⟩ := ih (h.run ready) free' (by rw [ready']; omega)
      have distinct := h.steady.alert.booked.nodup
      rw [ready] at distinct
      obtain ⟨new, -⟩ := List.nodup_cons.1 distinct
      have other {r : Nat} (hr : r ∈ rest) : r ≠ x := fun same => new (same ▸ hr)
      refine ⟨?_, fun r => ?_⟩
      · have same : rest.flatMap m.run.visit = rest.flatMap m.visit := by
          refine List.flatMap_congr fun r hr => ?_
          rw [visit, (others r (other hr)).2, visit]
        rw [if_neg (by simp), later, ready', log, same, List.append_assoc, List.flatMap_cons]
      · rw [if_neg (by simp), stand, ready']
        by_cases first : r = x
        · rw [first, if_neg new, if_pos List.mem_cons_self, inside]
        · rw [visited, (others r first).1, (others r first).2, ← visited]
          simp [first]

/-- **When no writer is left, all readers that wait go in**, in the order of the line. -/
theorem InLine.attend_freed (world : World I) (h : m.InLine modes) (rest : m.ready = [])
    (ends : m.Ends demand id how) (free : Free (m.threads.eraseIdx id) .shared) :
    ∃ line : List Nat, line.Perm (m.waiters .shared) ∧
      (Machine.attend world m demand).log = m.log ++ (id, .ended how) :: line.flatMap m.visit ∧
      (∀ r ∈ line, (Machine.attend world m demand).pointOf? r = some (m.visited r)) ∧
      (m.InTurn → line = m.waiters .shared ∧ ∀ r ∈ line, m.toldOf r = none) := by
  obtain ⟨t, found⟩ := ends.exists_found
  obtain ⟨last, departs, inLine, same⟩ := h.attend_ends world rest ends
  obtain ⟨ready, waiting⟩ := h.freed rest departs found inLine free
  obtain ⟨log, inside⟩ := inLine.enter_all world (departs.admits found inLine.steady free)
    (Nat.le_trans (Nat.le_add_left ..) inLine.enough)
  have distinct := h.steady.orderly.sleepers_nodup
  have told {r : Nat} (hr : r ∈ m.sleepers.erase id) :
      (last.retire id how).toldOf r = m.toldOf r :=
    (departs.stirs.trans (stirs_retire departs.queue id how)).toldOf_eq
      (distinct.mem_erase_iff.1 hr).1
  rw [same]
  refine ⟨m.sleepers.erase id, ?_, ?_, fun r hr => ?_, fun turn => ⟨?_, fun r hr => ?_⟩⟩
  · have once : (m.waiters .shared).Nodup := List.nodup_range.filter _
    exact (List.perm_ext_iff_of_nodup (distinct.erase id) once).2 waiting
  · have heard : (m.sleepers.erase id).flatMap (last.retire id how).visit =
        (m.sleepers.erase id).flatMap m.visit :=
      List.flatMap_congr fun r hr => by rw [visit, told hr, visit]
    rw [log, ready, heard, (lists_retire departs.queue id how).2.2, departs.log, List.append_assoc,
      List.singleton_append]
  · rw [inside, ready, if_pos hr, visited, told hr, visited]
  · have sorted := (turn.line.sorted rest).sublist (List.erase_sublist (a := id))
    exact sorted.eq_of_mem_iff (List.pairwise_lt_range.filter _) fun x => waiting x
  · exact turn.untold r (List.mem_of_mem_erase hr)

end

/-- **Writers come first, and all in the order of arrival.**  Tasks start, run, are cancelled,
told and answered in any order.  Then no task goes in to read while the lock says that somebody
is inside to write or waits to write; and nobody is or does, as long as the tasks give back only
what they have taken.

When each demand is followed until nothing can move before the next one, the log tells the truth
about all tasks, and no task goes in before a writer that came earlier, but for writers that were
cancelled.  When the lock is given back, or a task is cancelled, and no writer is left inside or
waiting, then all readers that wait go in at once.  They do so in the order of their arrival if
nobody has been told to give back a lock for which it waited. -/
theorem arrival_order (world : World I) (data : σ) :
    (∀ (moves : List (Move I σ ε α)) id m' p,
      ((initial data).after moves).Reaches id m' true p → p.wants? = some .shared →
        m'.writing = false ∧ m'.writersWaiting = 0 ∧
        ((∀ plan, .start plan ∈ moves → plan.Bracketed) →
          Free (m'.threads.eraseIdx id) .shared)) ∧
    ∀ demands : List (Demand ε),
      let m := unhurried world data demands
      m.ready = [] ∧ m.asker? = none ∧
      (∀ id t, m.threads[id]? = some t → Logged m.log id t.point) ∧
      InOrder (arrivals demands) m.log ∧
      ∀ demand id how, m.Ends demand id how → Free (m.threads.eraseIdx id) .shared →
        let last := attend world m demand
        (∃ line : List Nat, line.Perm (m.waiters .shared) ∧
          last.log = m.log ++ (id, .ended how) :: line.flatMap m.visit ∧
          ∀ r ∈ line, last.pointOf? r = some (m.visited r)) ∧
        (Punctual world data demands →
          last.log = m.log ++ (id, .ended how) :: (m.waiters .shared).map (·, .acquired) ∧
          ∀ r ∈ m.waiters .shared, last.pointOf? r = some (.inside .shared)) := by
  refine ⟨fun moves id m' p reaches reads => ?_, fun demands => ?_⟩
  · have admits := reaches.admits (orderly_after data moves).1 reads
    simp only [Machine.admits, Bool.and_eq_true, Bool.not_eq_true', beq_iff_eq] at admits
    exact ⟨admits.1, admits.2,
      fun bracketed => (guarded_after data moves bracketed).unopposed reaches reads⟩
  obtain ⟨h, rest⟩ := inLine_unhurried world data demands
  refine ⟨rest, asker?_eq_none h.registered.silent, fun id t => h.registered.logged_of_found,
    h.registered.fair, fun demand id how ends free => ?_⟩
  obtain ⟨line, perm, log, inside, inTurn⟩ := h.attend_freed world rest ends free
  refine ⟨⟨line, perm, log, inside⟩, fun punctual => ?_⟩
  obtain ⟨rfl, untold⟩ := inTurn (inTurn_unhurried punctual)
  have heard : ((unhurried world data demands).waiters .shared).flatMap
      (unhurried world data demands).visit =
        ((unhurried world data demands).waiters .shared).map (·, .acquired) := by
    rw [List.map_eq_flatMap]
    exact List.flatMap_congr fun r hr => by rw [visit, untold r hr]; rfl
  refine ⟨log.trans (by rw [heard]), fun r hr => ?_⟩
  rw [inside r hr, visited, untold r hr]
  rfl

/-- A writer is inside, a reader, a writer and another reader wait for it, and the second writer is
cancelled.  When the first writer gives the lock back, both readers go in. -/
theorem arrival_order_readers :
    let moves : List (Move Interface.silent Unit Empty Unit) :=
      [.start (.occupy .exclusive), .turn 0, .start (.occupy .shared), .turn 1,
        .tell 0 (.returned ()), .turn 0]
    let demands : List (Demand Empty) :=
      [.request .exclusive, .request .shared, .request .exclusive, .request .shared, .cancel 2]
    let m : Machine Interface.silent Unit Empty Unit := unhurried World.silent () demands
    let last := attend World.silent m (.release 0 (.returned ()))
    (∀ plan, .start plan ∈ moves → plan.Bracketed) ∧
      (∃ m', ((initial ()).after moves).Reaches 1 m' true (.occupy .shared) ∧
        m'.writersWaiting = 0 ∧ Free (m'.threads.eraseIdx 1) .shared) ∧
      Punctual World.silent () demands ∧ m.Ends (.release 0 (.returned ())) 0 (.returned ()) ∧
      Free (m.threads.eraseIdx 0) .shared ∧ m.waiters .shared = [1, 3] ∧
      last.log = m.log ++ [(0, .ended (.returned ())), (1, .acquired), (3, .acquired)] := by
  intro moves demands m last
  have bracketed : ∀ plan, .start plan ∈ moves → plan.Bracketed := by
    intro plan hplan
    simp only [moves, List.mem_cons, Move.start.injEq, reduceCtorEq, List.not_mem_nil, or_false,
      false_or] at hplan
    rcases hplan with rfl | rfl
    all_goals exact fun _ => trivial
  have punctual : Punctual World.silent () demands := by
    intro before demand after split
    have mem : demand ∈ demands := by
      rw [split]
      exact List.mem_append_right _ List.mem_cons_self
    simp only [demands, List.mem_cons, List.not_mem_nil, or_false] at mem
    rcases mem with rfl | rfl | rfl | rfl | rfl
    all_goals exact trivial
  have reader : ((initial ()).after moves).threads[1]? =
      some ⟨.occupy .shared, .asleep .shared, .granted, none, false⟩ := by
    simp only [moves]
    cbv
  have reaches := Reaches.turn (m := (initial ()).after moves) (by decide +kernel) reader
    (.again rfl rfl (by decide +kernel))
  have inside : m.pointOf? 0 = some (.inside .exclusive) := by
    simp only [m, demands]
    cbv
  have free : Free (m.threads.eraseIdx 0) .shared := ⟨by decide +kernel, by decide +kernel⟩
  have readers : m.waiters .shared = [1, 3] := by decide +kernel
  obtain ⟨unopposed, orders⟩ := arrival_order World.silent ()
  obtain ⟨-, waiting, unhindered⟩ := unopposed moves 1 _ _ reaches rfl
  obtain ⟨-, -, -, -, freed⟩ := orders demands
  obtain ⟨log, -⟩ := (freed _ 0 (.returned ()) (.release inside) free).2 punctual
  refine ⟨bracketed, ⟨_, reaches, waiting, unhindered bracketed⟩, punctual, .release inside, free,
    readers, ?_⟩
  rw [log, readers]
  rfl

/-- A writer that was told to give the lock back while it waited does so at once.  The reader that
looked before the writer went in then looks again after the reader that came later. -/
example :
    let demands : List (Demand Empty) :=
      [.request .exclusive, .request .shared, .request .exclusive, .request .shared,
        .release 2 (.returned ()), .release 0 (.returned ())]
    let m : Machine Interface.silent Unit Empty Unit := unhurried World.silent () demands
    m.log.map Prod.fst = [0, 0, 2, 2, 3, 1] := by
  decide +kernel

end Machine

end SignedOrders.Tasks
