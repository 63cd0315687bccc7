/-!
# Watch machine

Changes arm a deadline, and every further change moves it.  A deadline that is
reached starts a pass, unless a pass is running: then it is dropped.  The timer runs
beside the passes, so the state and the deadline are kept apart.

Time is counted in milliseconds.
-/

namespace ScreenCompiler

inductive WatchState where
  | idle
  /-- A change was seen; a pass starts at the deadline. -/
  | pending
  /-- A pass is running.  A deadline belongs to a change seen meanwhile. -/
  | compiling
  | stopped
  deriving DecidableEq, Repr

/-- What is to be done now. -/
inductive WatchAction where
  /-- Nothing for so long, or until the next change. -/
  | wait (time : Option Nat)
  | compile
  /-- A deadline was reached during a pass and is dropped. -/
  | skip
  | stopped
  deriving DecidableEq, Repr

structure WatchMachine where
  debounce : Nat
  state : WatchState
  deadline? : Option Nat
  deriving DecidableEq, Repr

namespace WatchMachine

def new (debounce : Nat) : WatchMachine :=
  ⟨debounce, .idle, none⟩

/-- A change at a moment. -/
def change (machine : WatchMachine) (time : Nat) : WatchMachine :=
  let deadline := time + machine.debounce
  match machine.state with
  | .stopped => machine
  | .idle | .pending => { machine with state := .pending, deadline? := some deadline }
  | .compiling => { machine with deadline? := some deadline }

/-- What is to be done at a moment. -/
def poll (machine : WatchMachine) (now : Nat) : WatchAction × WatchMachine :=
  if machine.state = .stopped then (.stopped, machine)
  else
    match machine.deadline? with
    | none => (.wait none, machine)
    | some deadline =>
        if now < deadline then (.wait (some (deadline - now)), machine)
        else if machine.state = .compiling then (.skip, { machine with deadline? := none })
        else (.compile, { machine with state := .compiling, deadline? := none })

/-- The end of the running pass. -/
def finish (machine : WatchMachine) : WatchMachine :=
  if machine.state = .compiling then
    { machine with state := if machine.deadline?.isSome then .pending else .idle }
  else machine

/-- Stops the machine for good, and tells whether it was running. -/
def stop (machine : WatchMachine) : Bool × WatchMachine :=
  (machine.state != .stopped, { machine with state := .stopped, deadline? := none })

variable {machine : WatchMachine} {deadline : Nat}

theorem change_of_stopped (stopped : machine.state = .stopped) (time : Nat) :
    machine.change time = machine := by
  simp [change, stopped]

theorem change_of_running (running : machine.state ≠ .stopped) (time : Nat) :
    machine.change time =
      { machine with
        state := if machine.state = .compiling then .compiling else .pending
        deadline? := some (time + machine.debounce) } := by
  cases machine with
  | mk debounce state deadline? => cases state <;> simp_all [change]

theorem poll_of_stopped (stopped : machine.state = .stopped) (now : Nat) :
    machine.poll now = (.stopped, machine) := by
  simp [poll, stopped]

theorem poll_unarmed (running : machine.state ≠ .stopped) (unarmed : machine.deadline? = none)
    (now : Nat) : machine.poll now = (.wait none, machine) := by
  simp [poll, running, unarmed]

theorem poll_early (running : machine.state ≠ .stopped) (armed : machine.deadline? = some deadline)
    {now : Nat} (early : now < deadline) :
    machine.poll now = (.wait (some (deadline - now)), machine) := by
  simp [poll, running, armed, early]

/-- A poll before any deadline leaves the machine as it is. -/
theorem exists_wait_of_early (running : machine.state ≠ .stopped) {now : Nat}
    (early : ∀ deadline, machine.deadline? = some deadline → now < deadline) :
    ∃ time, machine.poll now = (.wait time, machine) := by
  cases armed : machine.deadline? with
  | none => exact ⟨none, poll_unarmed running armed now⟩
  | some deadline => exact ⟨_, poll_early running armed (early deadline armed)⟩

theorem poll_due (running : machine.state ≠ .stopped) (armed : machine.deadline? = some deadline)
    {now : Nat} (due : deadline ≤ now) :
    machine.poll now =
      (if machine.state = .compiling then .skip else .compile,
        { machine with state := .compiling, deadline? := none }) := by
  cases machine with
  | mk debounce state deadline? => cases state <;> simp_all [poll, Nat.not_lt.mpr due]

theorem finish_of_compiling (compiling : machine.state = .compiling) :
    machine.finish =
      { machine with state := if machine.deadline?.isSome then .pending else .idle } := by
  rw [finish, if_pos compiling]

theorem finish_of_ne (resting : machine.state ≠ .compiling) : machine.finish = machine := by
  rw [finish, if_neg resting]

end WatchMachine

end ScreenCompiler
