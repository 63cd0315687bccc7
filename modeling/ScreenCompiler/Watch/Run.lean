import ScreenCompiler.Watch.Machine

/-!
# Runs of the watch machine

A run is what a machine is told and asked, one thing after another.  Its history is
what happened then, with the answers.

A worker tells the machine of changes as they arrive.  While it is busy with a pass,
messages queue up; it replays them when the pass has ended.
-/

namespace ScreenCompiler

inductive WatchInput where
  | change (time : Nat)
  | poll (now : Nat)
  | finish
  | stop
  deriving DecidableEq, Repr

/-- The moment that an input names. -/
def WatchInput.time? : WatchInput → Option Nat
  | .change time => some time
  | .poll now => some now
  | .finish | .stop => none

/-- An input with its answer. -/
inductive WatchRecord where
  | change (time : Nat)
  | poll (now : Nat) (action : WatchAction)
  | finish
  | stop (running : Bool)
  deriving DecidableEq, Repr

namespace WatchRecord

def isChange : WatchRecord → Bool
  | .change _ => true
  | _ => false

/-- A deadline was reached: a pass was started, or the deadline was dropped. -/
def fires : WatchRecord → Bool
  | .poll _ .compile | .poll _ .skip => true
  | _ => false

end WatchRecord

namespace WatchMachine

def step (machine : WatchMachine) : WatchInput → WatchRecord × WatchMachine
  | .change time => (.change time, machine.change time)
  | .poll now => (.poll now (machine.poll now).1, (machine.poll now).2)
  | .finish => (.finish, machine.finish)
  | .stop => (.stop machine.stop.1, machine.stop.2)

/-- The machine at the end of a run. -/
def after (machine : WatchMachine) (inputs : List WatchInput) : WatchMachine :=
  inputs.foldl (fun machine input => (machine.step input).2) machine

def history (machine : WatchMachine) : List WatchInput → List WatchRecord
  | [] => []
  | input :: inputs => (machine.step input).1 :: (machine.step input).2.history inputs

@[simp]
theorem after_nil (machine : WatchMachine) : machine.after [] = machine :=
  rfl

@[simp]
theorem after_cons (machine : WatchMachine) (input : WatchInput) (inputs : List WatchInput) :
    machine.after (input :: inputs) = (machine.step input).2.after inputs :=
  rfl

theorem after_append (machine : WatchMachine) (first second : List WatchInput) :
    machine.after (first ++ second) = (machine.after first).after second :=
  List.foldl_append

@[simp]
theorem history_nil (machine : WatchMachine) : machine.history [] = [] :=
  rfl

@[simp]
theorem history_cons (machine : WatchMachine) (input : WatchInput) (inputs : List WatchInput) :
    machine.history (input :: inputs) =
      (machine.step input).1 :: (machine.step input).2.history inputs :=
  rfl

theorem history_append (machine : WatchMachine) (first second : List WatchInput) :
    machine.history (first ++ second) =
      machine.history first ++ (machine.after first).history second := by
  induction first generalizing machine with
  | nil => rfl
  | cons input inputs inductionHypothesis =>
      rw [List.cons_append, history_cons, history_cons, after_cons, inductionHypothesis,
        List.cons_append]

/-- A record of a history is the answer to an input of the run. -/
theorem exists_of_history_eq {machine : WatchMachine} {inputs : List WatchInput}
    {before after : List WatchRecord} {record : WatchRecord}
    (split : machine.history inputs = before ++ record :: after) :
    ∃ first input rest, inputs = first ++ input :: rest ∧ machine.history first = before ∧
      ((machine.after first).step input).1 = record := by
  induction before generalizing machine inputs with
  | nil =>
      cases inputs with
      | nil => exact absurd split (by simp)
      | cons input inputs => exact ⟨[], input, inputs, rfl, rfl, (List.cons.inj split).1⟩
  | cons earlier before inductionHypothesis =>
      cases inputs with
      | nil => exact absurd split (by simp)
      | cons input inputs =>
          obtain ⟨isFirst, later⟩ := List.cons.inj split
          obtain ⟨first, next, rest, rfl, isBefore, isRecord⟩ := inductionHypothesis later
          exact ⟨input :: first, next, rest, rfl, by simp [isFirst, isBefore], isRecord⟩

@[simp]
theorem debounce_step (machine : WatchMachine) (input : WatchInput) :
    (machine.step input).2.debounce = machine.debounce := by
  cases input <;> grind [step, change, poll, finish, stop]

@[simp]
theorem debounce_after (machine : WatchMachine) (inputs : List WatchInput) :
    (machine.after inputs).debounce = machine.debounce := by
  induction inputs generalizing machine with
  | nil => rfl
  | cons input inputs inductionHypothesis =>
      rw [after_cons, inductionHypothesis, debounce_step]

theorem run_polls_early {machine : WatchMachine} (running : machine.state ≠ .stopped)
    {times : List Nat}
    (early : ∀ time ∈ times, ∀ deadline, machine.deadline? = some deadline → time < deadline) :
    machine.after (times.map .poll) = machine ∧
      ∀ record ∈ machine.history (times.map .poll), record.fires = false := by
  induction times with
  | nil => simp
  | cons time times inductionHypothesis =>
      obtain ⟨first, later⟩ := List.forall_mem_cons.mp early
      obtain ⟨same, quiet⟩ := inductionHypothesis later
      obtain ⟨wait, polled⟩ := exists_wait_of_early running first
      rw [List.map_cons, after_cons, history_cons, step, polled]
      exact ⟨same, List.forall_mem_cons.mpr ⟨rfl, quiet⟩⟩

end WatchMachine

/-- What reaches the worker. -/
inductive WatchMessage where
  | changed (time : Nat)
  | stop
  deriving DecidableEq, Repr

namespace WatchMessage

/-- A change is told at its own time, behind what was due by then. -/
def inputs : WatchMessage → List WatchInput
  | .changed time => [.poll time, .change time]
  | .stop => [.stop]

/-- What has arrived during a pass, and what is due now that it has ended. -/
def replay (messages : List WatchMessage) (now : Nat) : List WatchInput :=
  messages.flatMap inputs ++ [.poll now]

end WatchMessage

end ScreenCompiler
