import SignedOrders.Tasks.Machine

/-!
# Moves of a machine

A machine is moved from outside: tasks start, are cancelled, told to let go, and answered,
at any time and in any order.  Between these moves the ready tasks run.  A **move** is one
such event.  Whatever is shown of every list of moves holds of every schedule, since a
task that is ready may run before others that have been ready for longer.

Running the first of the ready tasks is a move (`run_eq_move`), and running until nothing
can move any more is a list of moves (`exists_settle_eq`).
-/

namespace SignedOrders.Tasks

/-- What can happen to a machine. -/
inductive Move (I : Interface) (σ ε α : Type) where
  | start (plan : Plan I σ ε α)
  /-- A task runs if it is ready. -/
  | turn (id : Nat)
  | cancel (id : Nat)
  | tell (id : Nat) (told : Outcome ε Unit)
  | reply (id : Nat) (world : World I)

namespace Machine

variable {I : Interface} {σ ε α : Type}

/-- A task is taken from those that are ready. -/
def pick (m : Machine I σ ε α) (id : Nat) : Machine I σ ε α := { m with ready := m.ready.erase id }

/-- The machine after a move. -/
def move (m : Machine I σ ε α) : Move I σ ε α → Machine I σ ε α
  | .start plan => m.start plan
  | .turn id => if id ∈ m.ready then (m.pick id).resume id else m
  | .cancel id => m.cancel id
  | .tell id told => m.tell id told
  | .reply id world => m.reply id world

/-- The machine after some moves, one after another. -/
def after (m : Machine I σ ε α) (moves : List (Move I σ ε α)) : Machine I σ ε α :=
  moves.foldl move m

variable (m : Machine I σ ε α)

@[simp] theorem after_nil : m.after [] = m := rfl

@[simp] theorem after_cons (move : Move I σ ε α) (moves : List (Move I σ ε α)) :
    m.after (move :: moves) = (m.move move).after moves := rfl

theorem after_append (moves later : List (Move I σ ε α)) :
    m.after (moves ++ later) = (m.after moves).after later :=
  List.foldl_append

theorem after_concat (moves : List (Move I σ ε α)) (move : Move I σ ε α) :
    m.after (moves ++ [move]) = (m.after moves).move move :=
  m.after_append moves [move]

/-- The first of the ready tasks runs. -/
theorem run_eq_move {id : Nat} {rest : List Nat} (h : m.ready = id :: rest) :
    m.run = m.move (.turn id) := by
  rw [run, move, pick, h, if_pos List.mem_cons_self, List.erase_cons_head]

/-- A machine comes to rest by moves. -/
theorem exists_settle_eq (world : World I) (fuel : Nat) :
    ∃ moves, settle world fuel m = m.after moves := by
  induction fuel generalizing m with
  | zero => exact ⟨[], rfl⟩
  | succ fuel ih =>
    rw [settle]
    split
    · rename_i id _
      obtain ⟨moves, h⟩ := ih (m.reply id world)
      exact ⟨.reply id world :: moves, h⟩
    · cases ready : m.ready with
      | nil => exact ⟨[], rfl⟩
      | cons id rest =>
        obtain ⟨moves, h⟩ := ih m.run
        refine ⟨.turn id :: moves, ?_⟩
        rw [after_cons, ← m.run_eq_move ready]
        exact h

end Machine

end SignedOrders.Tasks
