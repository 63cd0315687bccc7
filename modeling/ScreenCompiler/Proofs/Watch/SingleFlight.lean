import ScreenCompiler.Proofs.Watch.Debounce

/-!
# Single flight

In every state that a watch machine reaches, a deadline is armed just where one may be.
A pass has to end before the next one starts, a deadline that is armed at its end
starts the next one, and a machine that was stopped stays so.
-/

namespace ScreenCompiler

namespace WatchMachine

open WatchHistory

variable {machine : WatchMachine}

/-- A deadline is armed in a pending machine, and none in one that is idle or stopped. -/
structure IsArmed (machine : WatchMachine) : Prop where
  pending : machine.state = .pending → machine.deadline?.isSome = true
  idle : machine.state = .idle → machine.deadline? = none
  stopped : machine.state = .stopped → machine.deadline? = none

namespace IsArmed

theorem new (debounce : Nat) : (WatchMachine.new debounce).IsArmed where
  pending := nofun
  idle _ := rfl
  stopped := nofun

theorem change (isArmed : machine.IsArmed) (time : Nat) : (machine.change time).IsArmed := by
  by_cases state : machine.state = .stopped
  · rwa [change_of_stopped state]
  · rw [change_of_running state]
    by_cases compiling : machine.state = .compiling <;> constructor <;> simp [compiling]

theorem poll (isArmed : machine.IsArmed) (now : Nat) : (machine.poll now).2.IsArmed := by
  by_cases state : machine.state = .stopped
  · rwa [poll_of_stopped state]
  cases armed : machine.deadline? with
  | none => rwa [poll_unarmed state armed]
  | some deadline =>
      rcases Nat.lt_or_ge now deadline with early | due
      · rwa [poll_early state armed early]
      · rw [poll_due state armed due]
        constructor <;> simp

theorem finish (isArmed : machine.IsArmed) : machine.finish.IsArmed := by
  by_cases compiling : machine.state = .compiling
  · rw [finish_of_compiling compiling]
    cases machine.deadline? <;> constructor <;> simp
  · rwa [finish_of_ne compiling]

theorem stop (machine : WatchMachine) : machine.stop.2.IsArmed where
  pending := nofun
  idle := nofun
  stopped _ := rfl

theorem step (isArmed : machine.IsArmed) (input : WatchInput) :
    (machine.step input).2.IsArmed := by
  cases input with
  | change time => exact isArmed.change time
  | poll now => exact isArmed.poll now
  | finish => exact isArmed.finish
  | stop => exact .stop machine

theorem after (isArmed : machine.IsArmed) (inputs : List WatchInput) :
    (machine.after inputs).IsArmed := by
  induction inputs generalizing machine with
  | nil => exact isArmed
  | cons input inputs inductionHypothesis => exact inductionHypothesis (isArmed.step input)

/-- The end of a pass keeps an armed deadline. -/
theorem finish_armed (isArmed : machine.IsArmed) {deadline : Nat}
    (armed : machine.deadline? = some deadline) :
    machine.finish.state = .pending ∧ machine.finish.deadline? = some deadline := by
  by_cases compiling : machine.state = .compiling
  · rw [finish_of_compiling compiling]
    simp [armed]
  · rw [finish_of_ne compiling]
    refine ⟨?_, armed⟩
    cases state : machine.state with
    | pending => rfl
    | compiling => exact absurd state compiling
    | idle => simp [isArmed.idle state] at armed
    | stopped => simp [isArmed.stopped state] at armed

end IsArmed

theorem step_of_stopped (isArmed : machine.IsArmed) (stopped : machine.state = .stopped)
    (input : WatchInput) : (machine.step input).2 = machine := by
  cases input with
  | change time => exact change_of_stopped stopped time
  | poll now => exact congrArg Prod.snd (poll_of_stopped stopped now)
  | finish => exact finish_of_ne (by simp [stopped])
  | stop =>
      have unarmed := isArmed.stopped stopped
      cases machine
      simp_all [step, stop]

theorem run_of_stopped (isArmed : machine.IsArmed) (stopped : machine.state = .stopped)
    (inputs : List WatchInput) :
    machine.after inputs = machine ∧
      ∀ running, .stop running ∈ machine.history inputs → running = false := by
  induction inputs with
  | nil => simp
  | cons input inputs inductionHypothesis =>
      obtain ⟨same, told⟩ := inductionHypothesis
      rw [after_cons, history_cons, step_of_stopped isArmed stopped]
      refine ⟨same, fun running inside => ?_⟩
      rcases List.mem_cons.mp inside with isFirst | later
      · cases input <;> simp_all [step, stop]
      · exact told running later

end WatchMachine

theorem WatchHistory.Answers.landed {debounce now : Nat} {history : List WatchRecord}
    (answers : Answers debounce history now .compile) : ¬InFlight history := by
  intro flight
  obtain ⟨time, pending, due⟩ := answers.exists_pending rfl
  exact absurd (answers.busy time pending due flight) nofun

namespace WatchMachine

/-- What holds of a machine that has come through a history. -/
structure IsOrderly (machine : WatchMachine) (history : List WatchRecord) : Prop where
  armed : machine.IsArmed
  singleFlight : ∀ before first between second after,
    history = before ++ .poll first .compile :: between ++ .poll second .compile :: after →
    .finish ∈ between
  resumes : ∀ deadline, machine.deadline? = some deadline →
    machine.finish.state = .pending ∧
      ∀ (earlier : List Nat) (now : Nat), (∀ time ∈ earlier, time < deadline) → deadline ≤ now →
        ((machine.finish.after (earlier.map .poll)).poll now).1 = .compile
  ended : ∀ inputs, (machine.stop.2.after inputs).state = .stopped ∧
    (machine.stop.2.after inputs).deadline? = none ∧
      ∀ running, .stop running ∈ machine.stop.2.history inputs → running = false

theorem isOrderly_after (debounce : Nat) (inputs : List WatchInput) :
    ((new debounce).after inputs).IsOrderly ((new debounce).history inputs) where
  armed := (IsArmed.new debounce).after inputs
  singleFlight := by
    intro before first between second after split
    have landed := (answers_history debounce split).landed
    by_contra noEnd
    apply landed
    exact ⟨before, .poll first .compile, between, rfl, ⟨first, rfl⟩,
      fun other inside => ne_of_mem_of_not_mem inside noEnd⟩
  resumes := by
    intro deadline armed
    obtain ⟨pending, stillArmed⟩ :=
      ((IsArmed.new debounce).after inputs).finish_armed armed
    refine ⟨pending, fun earlier now early due => ?_⟩
    have running : ((new debounce).after inputs).finish.state ≠ .stopped := by
      simp [pending]
    have ahead : ∀ time ∈ earlier, ∀ other,
        ((new debounce).after inputs).finish.deadline? = some other → time < other := by
      intro time inside other isOther
      rw [stillArmed] at isOther
      rw [← Option.some.inj isOther]
      exact early time inside
    rw [(run_polls_early running ahead).1, poll_due running stillArmed due]
    simp [pending]
  ended := by
    intro more
    obtain ⟨same, told⟩ := run_of_stopped (.stop ((new debounce).after inputs)) rfl more
    rw [same]
    exact ⟨rfl, rfl, told⟩

end WatchMachine

end ScreenCompiler
