import Mathlib.Data.List.Basic
import Mathlib.Data.List.Induction
import ScreenCompiler.Watch.Run

/-!
# Debouncing

What a watch machine answers depends on its history alone: on the change that is
pending, and on whether a pass is in flight.  A poll fires when the debounce time has
passed since the pending change, and then this change is no longer pending; so a burst
of changes leads to one firing at most.
-/

namespace ScreenCompiler

namespace WatchHistory

/-- There is a marked record, and since then all records are quiet. -/
def Since (IsMark IsQuiet : WatchRecord → Prop) (history : List WatchRecord) : Prop :=
  ∃ before record after, history = before ++ record :: after ∧ IsMark record ∧
    ∀ other ∈ after, IsQuiet other

def HasStopped (history : List WatchRecord) : Prop :=
  ∃ running, .stop running ∈ history

/-- The last change is pending until a deadline fires or the machine is stopped. -/
def IsPending (history : List WatchRecord) (time : Nat) : Prop :=
  ¬HasStopped history ∧
    Since (· = .change time) (fun record => record.isChange = false ∧ record.fires = false) history

/-- A pass that was started has not ended yet. -/
def InFlight (history : List WatchRecord) : Prop :=
  Since (fun record => ∃ now, record = .poll now .compile) (· ≠ .finish) history

theorem since_concat {IsMark IsQuiet : WatchRecord → Prop} {history : List WatchRecord}
    {record : WatchRecord} :
    Since IsMark IsQuiet (history ++ [record]) ↔
      IsMark record ∨ Since IsMark IsQuiet history ∧ IsQuiet record := by
  constructor
  · rintro ⟨before, mark, after, split, isMark, quiet⟩
    rcases List.eq_nil_or_concat' after with rfl | ⟨others, last, rfl⟩
    · obtain ⟨-, same⟩ := List.append_inj' split rfl
      left
      rwa [List.singleton_inj.mp same]
    · rw [← List.cons_append, ← List.append_assoc] at split
      obtain ⟨rfl, same⟩ := List.append_inj' split rfl
      obtain rfl := List.singleton_inj.mp same
      right
      exact ⟨⟨before, mark, others, rfl, isMark, fun other inside =>
        quiet other (List.mem_append_left _ inside)⟩, quiet record (by simp)⟩
  · rintro (isMark | ⟨⟨before, mark, after, rfl, isMark, quiet⟩, last⟩)
    · exact ⟨history, record, [], rfl, isMark, by simp⟩
    · refine ⟨before, mark, after ++ [record], by simp, isMark, ?_⟩
      intro other inside
      rcases List.mem_append.mp inside with earlier | isLast
      · exact quiet other earlier
      · rwa [List.mem_singleton.mp isLast]

theorem hasStopped_concat {history : List WatchRecord} {record : WatchRecord} :
    HasStopped (history ++ [record]) ↔ HasStopped history ∨ ∃ running, record = .stop running := by
  simp only [HasStopped, List.mem_append, List.mem_singleton, exists_or, eq_comm]

theorem isPending_concat {history : List WatchRecord} {record : WatchRecord} {time : Nat} :
    IsPending (history ++ [record]) time ↔
      ¬HasStopped history ∧ record = .change time ∨
        IsPending history time ∧ (∀ running, record ≠ .stop running) ∧
          record.isChange = false ∧ record.fires = false := by
  rw [IsPending, IsPending, hasStopped_concat, since_concat]
  cases record <;> simp [WatchRecord.isChange, and_assoc]

theorem isPending_concat_change {history : List WatchRecord} {last time : Nat} :
    IsPending (history ++ [.change last]) time ↔ ¬HasStopped history ∧ time = last := by
  rw [isPending_concat]
  constructor
  · rintro (⟨running, same⟩ | ⟨-, -, change, -⟩)
    · exact ⟨running, (WatchRecord.change.inj same).symm⟩
    · exact absurd change (by simp [WatchRecord.isChange])
  · rintro ⟨running, rfl⟩
    exact .inl ⟨running, rfl⟩

theorem inFlight_concat {history : List WatchRecord} {record : WatchRecord} :
    InFlight (history ++ [record]) ↔
      (∃ now, record = .poll now .compile) ∨ InFlight history ∧ record ≠ .finish :=
  since_concat

/-- What a poll has to answer. -/
structure Answers (debounce : Nat) (history : List WatchRecord) (now : Nat)
    (action : WatchAction) : Prop where
  stopped : HasStopped history → action = .stopped
  quiet : ¬HasStopped history → (∀ time, ¬IsPending history time) → action = .wait none
  early : ∀ time, IsPending history time → now < time + debounce →
    action = .wait (some (time + debounce - now))
  busy : ∀ time, IsPending history time → time + debounce ≤ now → InFlight history →
    action = .skip
  due : ∀ time, IsPending history time → time + debounce ≤ now → ¬InFlight history →
    action = .compile

/-- Only the last change can be pending, and only while no deadline has fired since. -/
theorem isPending_behind {before after : List WatchRecord} {last time : Nat}
    (still : ∀ record ∈ after, record.isChange = false)
    (pending : IsPending (before ++ .change last :: after) time) :
    time = last ∧ ∀ record ∈ after, record.fires = false := by
  induction after using List.reverseRecOn with
  | nil => exact ⟨(isPending_concat_change.mp pending).2, by simp⟩
  | append_singleton front record inductionHypothesis =>
      obtain ⟨stillBefore, isNoChange⟩ := List.forall_mem_append.mp still
      rw [← List.cons_append, ← List.append_assoc, isPending_concat] at pending
      rcases pending with ⟨-, rfl⟩ | ⟨pending, -, -, quiet⟩
      · exact absurd (isNoChange _ List.mem_cons_self) (by simp [WatchRecord.isChange])
      · obtain ⟨isLast, quietBefore⟩ := inductionHypothesis stillBefore pending
        exact ⟨isLast, List.forall_mem_append.mpr ⟨quietBefore, by simpa using quiet⟩⟩

theorem Answers.exists_pending {debounce now : Nat} {history : List WatchRecord}
    {action : WatchAction} (answers : Answers debounce history now action)
    (fires : (WatchRecord.poll now action).fires = true) :
    ∃ time, IsPending history time ∧ time + debounce ≤ now := by
  by_cases stopped : HasStopped history
  · obtain rfl := answers.stopped stopped
    exact absurd fires (by simp [WatchRecord.fires])
  by_cases quiet : ∀ time, ¬IsPending history time
  · obtain rfl := answers.quiet stopped quiet
    exact absurd fires (by simp [WatchRecord.fires])
  · obtain ⟨time, pending⟩ := not_forall_not.mp quiet
    refine ⟨time, pending, Nat.le_of_not_lt fun early => ?_⟩
    obtain rfl := answers.early time pending early
    exact absurd fires (by simp [WatchRecord.fires])

/-- A history in which every poll is answered as it has to be, and so a burst of changes leads to
one firing at most: not before the debounce time has passed since its last change. -/
structure IsDebounced (debounce : Nat) (history : List WatchRecord) : Prop where
  answers : ∀ before now action after, history = before ++ .poll now action :: after →
    Answers debounce before now action
  bursts : ∀ before burst last after rest,
    history = before ++ (burst ++ .change last :: after) ++ rest →
    (∀ record ∈ burst, record.fires = false) → (∀ record ∈ after, record.isChange = false) →
    (burst ++ .change last :: after).countP WatchRecord.fires ≤ 1 ∧
      ∀ now action, .poll now action ∈ after → (WatchRecord.poll now action).fires = true →
        last + debounce ≤ now

theorem countP_fires_le_one {debounce last : Nat} {before after : List WatchRecord}
    (still : ∀ record ∈ after, record.isChange = false)
    (answers : ∀ front now action back, after = front ++ .poll now action :: back →
      Answers debounce (before ++ .change last :: front) now action) :
    after.countP WatchRecord.fires ≤ 1 := by
  induction after using List.reverseRecOn with
  | nil => simp
  | append_singleton front record inductionHypothesis =>
      obtain ⟨stillBefore, -⟩ := List.forall_mem_append.mp still
      rw [List.countP_append, List.countP_singleton]
      cases fires : record.fires with
      | false =>
          apply inductionHypothesis stillBefore
          intro first now action back split
          exact answers first now action (back ++ [record]) (by simp [split])
      | true =>
          cases record with
          | poll now action =>
              obtain ⟨time, pending, -⟩ := (answers front now action [] rfl).exists_pending fires
              have quiet := (isPending_behind stillBefore pending).2
              have unfired : front.countP WatchRecord.fires = 0 :=
                List.countP_eq_zero.mpr fun other inside => by simp [quiet other inside]
              simp [unfired]
          | change time => exact absurd fires (by simp [WatchRecord.fires])
          | finish => exact absurd fires (by simp [WatchRecord.fires])
          | stop running => exact absurd fires (by simp [WatchRecord.fires])

theorem isDebounced_of_answers {debounce : Nat} {history : List WatchRecord}
    (answers : ∀ before now action after, history = before ++ .poll now action :: after →
      Answers debounce before now action) : IsDebounced debounce history where
  answers := answers
  bursts := by
    intro before burst last after rest split quiet still
    have answersBehind : ∀ front now action back, after = front ++ .poll now action :: back →
        Answers debounce (before ++ burst ++ .change last :: front) now action := by
      intro front now action back splitBehind
      apply answers _ now action (back ++ rest)
      simp [split, splitBehind]
    have noneBefore : burst.countP WatchRecord.fires = 0 :=
      List.countP_eq_zero.mpr fun other inside => by simp [quiet other inside]
    constructor
    · rw [List.countP_append, noneBefore, Nat.zero_add, List.countP_cons_of_neg Bool.false_ne_true]
      exact countP_fires_le_one still answersBehind
    · intro now action inside fires
      obtain ⟨front, back, rfl⟩ := List.append_of_mem inside
      obtain ⟨time, pending, due⟩ := (answersBehind front now action back rfl).exists_pending fires
      have stillBefore := (List.forall_mem_append.mp still).1
      rwa [(isPending_behind stillBefore pending).1] at due

end WatchHistory

namespace WatchMachine

open WatchHistory

variable {machine : WatchMachine} {history : List WatchRecord}

structure Reflects (machine : WatchMachine) (history : List WatchRecord) : Prop where
  stopped : machine.state = .stopped ↔ HasStopped history
  armed : ∀ deadline, machine.deadline? = some deadline ↔
    ∃ time, IsPending history time ∧ deadline = time + machine.debounce
  busy : ¬HasStopped history → (machine.state = .compiling ↔ InFlight history)

namespace Reflects

theorem deadline?_of_hasStopped (reflects : machine.Reflects history)
    (stopped : HasStopped history) : machine.deadline? = none := by
  rw [Option.eq_none_iff_forall_ne_some]
  intro deadline armed
  obtain ⟨time, pending, -⟩ := (reflects.armed deadline).mp armed
  exact pending.1 stopped

theorem deadline?_of_isPending (reflects : machine.Reflects history) {time : Nat}
    (pending : IsPending history time) : machine.deadline? = some (time + machine.debounce) :=
  (reflects.armed _).mpr ⟨time, pending, rfl⟩

theorem new (debounce : Nat) : (WatchMachine.new debounce).Reflects [] where
  stopped := by simp [WatchMachine.new, HasStopped]
  armed := by simp [WatchMachine.new, IsPending, Since]
  busy := by simp [WatchMachine.new, InFlight, Since]

/-- A record that no deadline is behind changes nothing for a machine that stays as it is. -/
theorem poll_quiet (reflects : machine.Reflects history) (now : Nat) {action : WatchAction}
    (quiet : (WatchRecord.poll now action).fires = false) :
    machine.Reflects (history ++ [.poll now action]) where
  stopped := by simp [reflects.stopped, hasStopped_concat]
  armed := by simp [reflects.armed, isPending_concat, WatchRecord.isChange, quiet]
  busy := by
    have noPass : action ≠ .compile := by
      rintro rfl
      exact absurd quiet (by simp [WatchRecord.fires])
    simpa [hasStopped_concat, inFlight_concat, noPass] using reflects.busy

theorem change (reflects : machine.Reflects history) (time : Nat) :
    (machine.change time).Reflects (history ++ [.change time]) := by
  by_cases state : machine.state = .stopped
  · have stopped := reflects.stopped.mp state
    rw [change_of_stopped state]
    constructor
    · simp [state, hasStopped_concat, stopped]
    · simp [reflects.deadline?_of_hasStopped stopped, isPending_concat_change, stopped]
    · simp [hasStopped_concat, stopped]
  · have running := mt reflects.stopped.mpr state
    rw [change_of_running state]
    constructor
    · simp only [hasStopped_concat, running, false_or, reduceCtorEq, exists_false, iff_false]
      split <;> simp
    · intro deadline
      simp [isPending_concat_change, running, eq_comm]
    · intro _
      simp [inFlight_concat, ← reflects.busy running]

theorem poll (reflects : machine.Reflects history) (now : Nat) :
    (machine.poll now).2.Reflects (history ++ [.poll now (machine.poll now).1]) := by
  by_cases state : machine.state = .stopped
  · rw [poll_of_stopped state]
    exact reflects.poll_quiet now rfl
  have running := mt reflects.stopped.mpr state
  cases armed : machine.deadline? with
  | none =>
      rw [poll_unarmed state armed]
      exact reflects.poll_quiet now rfl
  | some deadline =>
      rcases Nat.lt_or_ge now deadline with early | due
      · rw [poll_early state armed early]
        exact reflects.poll_quiet now rfl
      · rw [poll_due state armed due]
        have fires : (WatchRecord.poll now
            (if machine.state = .compiling then .skip else .compile)).fires = true := by
          split <;> rfl
        constructor
        · simp [hasStopped_concat, running]
        · simp [isPending_concat, fires]
        · intro _
          have busy := reflects.busy running
          by_cases compiling : machine.state = .compiling
          · simp [inFlight_concat, compiling, busy.mp compiling]
          · simp [inFlight_concat, compiling]

theorem finish (reflects : machine.Reflects history) :
    machine.finish.Reflects (history ++ [.finish]) := by
  have pending : ∀ time, IsPending (history ++ [.finish]) time ↔ IsPending history time := by
    simp [isPending_concat, WatchRecord.isChange, WatchRecord.fires]
  by_cases compiling : machine.state = .compiling
  · have running : ¬HasStopped history := by
      rw [← reflects.stopped, compiling]
      exact nofun
    rw [finish_of_compiling compiling]
    constructor
    · simp only [hasStopped_concat, running, false_or, reduceCtorEq, exists_false, iff_false]
      split <;> simp
    · simpa [pending] using reflects.armed
    · intro _
      simp only [inFlight_concat, ne_eq, not_true_eq_false, and_false, or_false, reduceCtorEq,
        exists_false, iff_false]
      split <;> simp
  · rw [finish_of_ne compiling]
    constructor
    · simp [reflects.stopped, hasStopped_concat]
    · simpa [pending] using reflects.armed
    · simp [inFlight_concat, compiling]

theorem stop (machine : WatchMachine) (history : List WatchRecord) :
    machine.stop.2.Reflects (history ++ [.stop machine.stop.1]) where
  stopped := by simp [WatchMachine.stop, hasStopped_concat]
  armed := by simp [WatchMachine.stop, isPending_concat]
  busy := by simp [hasStopped_concat]

theorem step (reflects : machine.Reflects history) (input : WatchInput) :
    (machine.step input).2.Reflects (history ++ [(machine.step input).1]) := by
  cases input with
  | change time => exact reflects.change time
  | poll now => exact reflects.poll now
  | finish => exact reflects.finish
  | stop => exact .stop machine history

theorem after (reflects : machine.Reflects history) (inputs : List WatchInput) :
    (machine.after inputs).Reflects (history ++ machine.history inputs) := by
  induction inputs generalizing machine history with
  | nil => simpa using reflects
  | cons input inputs inductionHypothesis =>
      have later := inductionHypothesis (reflects.step input)
      rwa [List.append_assoc] at later

theorem answers (reflects : machine.Reflects history) (now : Nat) :
    Answers machine.debounce history now (machine.poll now).1 := by
  by_cases state : machine.state = .stopped
  · have stopped := reflects.stopped.mp state
    rw [poll_of_stopped state]
    constructor <;> simp [stopped, IsPending]
  have running := mt reflects.stopped.mpr state
  constructor
  · exact fun stopped => absurd stopped running
  · intro _ quiet
    have unarmed : machine.deadline? = none := by
      rw [Option.eq_none_iff_forall_ne_some]
      intro deadline armed
      obtain ⟨time, pending, -⟩ := (reflects.armed deadline).mp armed
      exact quiet time pending
    rw [poll_unarmed state unarmed]
  · intro time pending early
    rw [poll_early state (reflects.deadline?_of_isPending pending) early]
  · intro time pending due flight
    rw [poll_due state (reflects.deadline?_of_isPending pending) due,
      if_pos ((reflects.busy running).mpr flight)]
  · intro time pending due landed
    rw [poll_due state (reflects.deadline?_of_isPending pending) due,
      if_neg (mt (reflects.busy running).mp landed)]

end Reflects

theorem answers_history (debounce : Nat) {inputs : List WatchInput}
    {before after : List WatchRecord} {now : Nat} {action : WatchAction}
    (split : (new debounce).history inputs = before ++ .poll now action :: after) :
    Answers debounce before now action := by
  obtain ⟨first, input, rest, -, rfl, isRecord⟩ := exists_of_history_eq split
  have reflects := (Reflects.new debounce).after first
  rw [List.nil_append] at reflects
  cases input with
  | poll asked =>
      obtain ⟨rfl, rfl⟩ := WatchRecord.poll.inj isRecord
      simpa [new] using reflects.answers asked
  | change time => exact absurd isRecord nofun
  | finish => exact absurd isRecord nofun
  | stop => exact absurd isRecord nofun

/-- The watch machine is debounce and single flight: whatever it is told and asked, its answers
are those that its history calls for. -/
theorem isDebounced_history (debounce : Nat) (inputs : List WatchInput) :
    IsDebounced debounce ((new debounce).history inputs) :=
  isDebounced_of_answers fun _ _ _ _ split => answers_history debounce split

example : (new 100).history [.change 0, .change 80, .poll 150, .poll 180, .poll 500] =
    [.change 0, .change 80, .poll 150 (.wait (some 30)), .poll 180 .compile,
      .poll 500 (.wait none)] := by
  decide

end WatchMachine

end ScreenCompiler
