import ScreenCompiler.Proofs.Watch.SingleFlight

/-!
# Replaying changes

While a pass is running, a poll can only drop the deadline that it finds due.  So polls
put between the others drop no more than the next of these would have dropped, and a
worker that replays changes behind a pass leaves the machine as a live timer would have.
-/

namespace ScreenCompiler

/-- The second run is the first with further polls put in. -/
inductive WatchInput.MorePolls : List WatchInput → List WatchInput → Prop where
  | nil : MorePolls [] []
  | same {inputs more : List WatchInput} (input : WatchInput) (polls : MorePolls inputs more) :
      MorePolls (input :: inputs) (input :: more)
  | poll {inputs more : List WatchInput} (now : Nat) (polls : MorePolls inputs more) :
      MorePolls inputs (.poll now :: more)

namespace WatchInput.MorePolls

theorem of_nil {more : List WatchInput} (polls : MorePolls [] more) :
    ∃ times : List Nat, more = times.map .poll := by
  generalize isNil : ([] : List WatchInput) = inputs at polls
  induction polls with
  | nil => exact ⟨[], rfl⟩
  | same input polls => exact absurd isNil nofun
  | poll now polls inductionHypothesis =>
      obtain ⟨times, rfl⟩ := inductionHypothesis isNil
      exact ⟨now :: times, rfl⟩

theorem of_cons {input : WatchInput} {inputs more : List WatchInput}
    (polls : MorePolls (input :: inputs) more) :
    ∃ (times : List Nat) (rest : List WatchInput),
      more = times.map .poll ++ input :: rest ∧ MorePolls inputs rest := by
  generalize isCons : input :: inputs = whole at polls
  induction polls with
  | nil => exact absurd isCons nofun
  | same other polls =>
      obtain ⟨rfl, rfl⟩ := List.cons.inj isCons
      exact ⟨[], _, rfl, polls⟩
  | poll now polls inductionHypothesis =>
      obtain ⟨times, rest, rfl, further⟩ := inductionHypothesis isCons
      exact ⟨now :: times, rest, rfl, further⟩

end WatchInput.MorePolls

theorem WatchInput.times_polls (times : List Nat) :
    (times.map WatchInput.poll).filterMap WatchInput.time? = times := by
  simp [List.filterMap_map, Function.comp_def, WatchInput.time?]

def WatchRecord.isSkip : WatchRecord → Bool
  | .poll _ .skip => true
  | _ => false

namespace WatchMachine

open WatchInput WatchMessage

variable {machine : WatchMachine}

/-- How many deadlines are dropped in a run. -/
def skips (machine : WatchMachine) (inputs : List WatchInput) : Nat :=
  (machine.history inputs).countP WatchRecord.isSkip

theorem skips_append (machine : WatchMachine) (first second : List WatchInput) :
    machine.skips (first ++ second) = machine.skips first + (machine.after first).skips second := by
  rw [skips, history_append, List.countP_append]
  rfl

structure Alike (machine : WatchMachine) (first second : List WatchInput) : Prop where
  after : machine.after first = machine.after second
  skips : machine.skips first = machine.skips second

namespace Alike

variable {first second third : List WatchInput}

theorem refl (machine : WatchMachine) (inputs : List WatchInput) : machine.Alike inputs inputs :=
  ⟨rfl, rfl⟩

theorem trans (before : machine.Alike first second) (behind : machine.Alike second third) :
    machine.Alike first third :=
  ⟨before.after.trans behind.after, before.skips.trans behind.skips⟩

theorem append_right (alike : machine.Alike first second) (rest : List WatchInput) :
    machine.Alike (first ++ rest) (second ++ rest) where
  after := by rw [after_append, after_append, alike.after]
  skips := by rw [skips_append, skips_append, alike.after, alike.skips]

theorem append_left (front : List WatchInput) (alike : (machine.after front).Alike first second) :
    machine.Alike (front ++ first) (front ++ second) where
  after := by rw [after_append, after_append, alike.after]
  skips := by rw [skips_append, skips_append, alike.skips]

end Alike

/-- A poll during a pass drops the deadline that is due. -/
theorem poll_of_compiling (compiling : machine.state = .compiling) (now : Nat) :
    (machine.poll now).2 = { machine with deadline? := machine.deadline?.filter (now < ·) } := by
  have running : machine.state ≠ .stopped := by simp [compiling]
  cases armed : machine.deadline? with
  | none =>
      rw [poll_unarmed running armed, Option.filter_none, ← armed]
  | some deadline =>
      rcases Nat.lt_or_ge now deadline with early | due
      · rw [poll_early running armed early, Option.filter_some, if_pos (by simpa using early),
          ← armed]
      · rw [poll_due running armed due, Option.filter_some, compiling]
        simp [Nat.not_lt.mpr due]

theorem change_of_compiling (compiling : machine.state = .compiling) (time : Nat) :
    machine.change time = { machine with deadline? := some (time + machine.debounce) } := by
  rw [change_of_running (by simp [compiling]), if_pos compiling, compiling]

theorem alike_polls_early (running : machine.state ≠ .stopped) {times : List Nat}
    (early : ∀ time ∈ times, ∀ deadline, machine.deadline? = some deadline → time < deadline) :
    machine.Alike (times.map .poll) [] := by
  obtain ⟨same, quiet⟩ := run_polls_early running early
  refine ⟨same, List.countP_eq_zero.mpr fun record inside => ?_⟩
  have unfired := quiet record inside
  unfold WatchRecord.isSkip
  split
  · exact absurd unfired (by simp [WatchRecord.fires])
  · simp

/-- Of two polls, the second drops what the first has not. -/
theorem alike_two_polls (compiling : machine.state = .compiling) {first now : Nat}
    (before : first ≤ now) : machine.Alike [.poll first, .poll now] [.poll now] := by
  have running : machine.state ≠ .stopped := by simp [compiling]
  by_cases early : ∀ deadline, machine.deadline? = some deadline → first < deadline
  · have still := alike_polls_early running (List.forall_mem_singleton.mpr early)
    exact still.append_right [.poll now]
  · obtain ⟨deadline, armed, due⟩ := not_forall₂.mp early
    have dueFirst := Nat.le_of_not_lt due
    have dueNow := Nat.le_trans dueFirst before
    constructor <;>
      simp [skips, step, poll_due running armed dueFirst, poll_due running armed dueNow,
        compiling, poll_unarmed, List.countP_cons, WatchRecord.isSkip]

theorem alike_polls_before (compiling : machine.state = .compiling) {times : List Nat} {now : Nat}
    (before : ∀ time ∈ times, time ≤ now) :
    machine.Alike (times.map .poll ++ [.poll now]) [.poll now] := by
  induction times generalizing machine with
  | nil => exact .refl machine _
  | cons time times inductionHypothesis =>
      obtain ⟨first, later⟩ := List.forall_mem_cons.mp before
      have stays : (machine.poll time).2.state = .compiling := by
        rw [poll_of_compiling compiling, compiling]
      have behind := inductionHypothesis stays later
      exact (behind.append_left [.poll time]).trans (alike_two_polls compiling first)

/-- Polls around a poll, none of them later, drop no more than this poll alone. -/
theorem alike_polls_around (compiling : machine.state = .compiling) {early late : List Nat}
    {now : Nat} (before : ∀ time ∈ early, time ≤ now) (behind : ∀ time ∈ late, time ≤ now) :
    machine.Alike (early.map .poll ++ .poll now :: late.map .poll) [.poll now] := by
  have nothingDue : (machine.after [.poll now]).Alike (late.map .poll) [] := by
    rw [after_cons, after_nil, step, poll_of_compiling compiling]
    refine alike_polls_early (by simp [compiling]) fun time inside deadline armed => ?_
    have ahead := (Option.filter_eq_some_iff.mp armed).2
    exact Nat.lt_of_le_of_lt (behind time inside) (of_decide_eq_true ahead)
  have split : early.map WatchInput.poll ++ .poll now :: late.map .poll =
      (early.map .poll ++ [.poll now]) ++ late.map .poll := by simp
  rw [split]
  exact ((alike_polls_before compiling before).append_right _).trans
    (nothingDue.append_left [.poll now])

/-- A replayed change takes the place of what was armed before. -/
theorem after_replayed (compiling : machine.state = .compiling) (time : Nat) :
    machine.after [.poll time, .change time] =
      { machine with deadline? := some (time + machine.debounce) } := by
  have polled : { machine with deadline? := machine.deadline?.filter (time < ·) }.state =
      .compiling := compiling
  rw [after_cons, after_cons, after_nil, step, step, poll_of_compiling compiling]
  exact change_of_compiling polled time

theorem alike_replay (compiling : machine.state = .compiling) {times : List Nat} {now : Nat}
    {more : List WatchInput} (polls : MorePolls (replay (times.map .changed) now) more)
    (ordered : (more.filterMap WatchInput.time?).Pairwise (· ≤ ·))
    (within : ∀ time ∈ more.filterMap WatchInput.time?, time ≤ now) :
    machine.Alike more (replay (times.map .changed) now) := by
  induction times generalizing machine more with
  | nil =>
      obtain ⟨early, rest, rfl, further⟩ := polls.of_cons
      obtain ⟨late, rfl⟩ := further.of_nil
      simp only [List.filterMap_append, List.filterMap_cons, times_polls, WatchInput.time?,
        List.forall_mem_append, List.forall_mem_cons] at within
      exact alike_polls_around compiling within.1 within.2.2
  | cons time times inductionHypothesis =>
      obtain ⟨early, behind, rfl, further⟩ := polls.of_cons
      obtain ⟨late, rest, rfl, furthest⟩ := further.of_cons
      simp only [List.filterMap_append, List.filterMap_cons, times_polls, WatchInput.time?]
        at ordered within
      obtain ⟨-, orderedBehind, before⟩ := List.pairwise_append.mp ordered
      obtain ⟨-, orderedLate, beforeChange⟩ :=
        List.pairwise_append.mp (List.pairwise_cons.mp orderedBehind).2
      have around : machine.Alike (early.map .poll ++ .poll time :: late.map .poll) [.poll time] :=
        alike_polls_around compiling
          (fun other inside => before other inside time List.mem_cons_self)
          (fun other inside => beforeChange other inside time List.mem_cons_self)
      have changed := after_replayed compiling time
      have stays : (machine.after [.poll time, .change time]).state = .compiling := by
        rw [changed, compiling]
      have later := inductionHypothesis stays furthest (List.pairwise_cons.mp orderedLate).2
        fun other inside => within other (by simp [inside])
      have split : early.map WatchInput.poll ++
            .poll time :: (late.map .poll ++ .change time :: rest) =
          (early.map .poll ++ .poll time :: late.map .poll) ++ .change time :: rest := by simp
      rw [split]
      exact (around.append_right _).trans (later.append_left [.poll time, .change time])

theorem exists_after_replayed (compiling : machine.state = .compiling) (times : List Nat) :
    ∃ deadline?, machine.after ((times.map .changed).flatMap WatchMessage.inputs) =
      { machine with deadline? := deadline? } := by
  induction times generalizing machine with
  | nil => exact ⟨machine.deadline?, rfl⟩
  | cons time times inductionHypothesis =>
      rw [List.map_cons, List.flatMap_cons, after_append, WatchMessage.inputs,
        after_replayed compiling]
      exact inductionHypothesis compiling

/-- Only the last change of a replay leaves a deadline, unless it is due at the end. -/
theorem after_replay (compiling : machine.state = .compiling) (times : List Nat) (last now : Nat) :
    machine.after (replay ((times ++ [last]).map .changed) now) =
      { machine with
        deadline? := (some (last + machine.debounce)).filter (now < ·) } := by
  obtain ⟨deadline?, before⟩ := exists_after_replayed compiling times
  have compilingStill : { machine with deadline? := deadline? }.state = .compiling := compiling
  have changed : { machine with deadline? := some (last + machine.debounce) }.state =
      .compiling := compiling
  rw [replay, List.map_append, List.flatMap_append, after_append, after_append, before,
    List.map_singleton, List.flatMap_singleton, WatchMessage.inputs,
    after_replayed compilingStill]
  exact poll_of_compiling changed now

/-- A replay behind a pass and every run with more polls on the way end alike: with as many dropped
deadlines, and with a machine that waits for the last change unless this was due already. -/
theorem run_morePolls_replay (compiling : machine.state = .compiling) {times : List Nat}
    {now : Nat} {more : List WatchInput}
    (polls : MorePolls (replay (times.map .changed) now) more)
    (ordered : (more.filterMap WatchInput.time?).Pairwise (· ≤ ·))
    (within : ∀ time ∈ more.filterMap WatchInput.time?, time ≤ now) :
    machine.after more = machine.after (replay (times.map .changed) now) ∧
      machine.skips more = machine.skips (replay (times.map .changed) now) ∧
      ∀ last, times.getLast? = some last →
        (now < last + machine.debounce → (machine.after more).finish =
          { machine with state := .pending, deadline? := some (last + machine.debounce) }) ∧
        (last + machine.debounce ≤ now → (machine.after more).finish =
          { machine with state := .idle, deadline? := none }) := by
  have alike := alike_replay compiling polls ordered within
  refine ⟨alike.after, alike.skips, ?_⟩
  intro last isLast
  obtain ⟨times, rfl⟩ := List.getLast?_eq_some_iff.mp isLast
  rw [alike.after, after_replay compiling]
  constructor
  · intro early
    simp [finish, compiling, early]
  · intro due
    simp [finish, compiling, Option.filter_some, Nat.not_lt.mpr due]

/-- Three changes behind a deadline that was armed before, with polls at every turn.  The old
deadline and that of the second change are dropped, and the third change waits. -/
theorem run_morePolls_replay_threeChanges :
    let machine : WatchMachine := ⟨100, .compiling, some 30⟩
    let more : List WatchInput := [.poll 10, .poll 30, .poll 35, .poll 35, .change 35, .poll 50,
      .change 50, .poll 150, .poll 190, .poll 200, .change 200, .poll 260, .poll 260]
    machine.skips more = 2 ∧ (machine.after more).finish = ⟨100, .pending, some 300⟩ := by
  intro machine more
  have polls : MorePolls (replay ([35, 50, 200].map .changed) 260) more :=
    .poll 10 (.poll 30 (.same _ (.poll 35 (.same _ (.same _ (.same _ (.poll 150 (.poll 190
      (.same _ (.same _ (.same _ (.poll 260 .nil))))))))))))
  obtain ⟨-, skips, finished⟩ :=
    run_morePolls_replay (show machine.state = .compiling from rfl) polls (by decide) (by decide)
  exact ⟨skips.trans (by decide), (finished 200 rfl).1 (by decide)⟩

/-- A poll behind the end of a replay can find the last change due. -/
theorem run_latePoll_replay :
    let machine := (new 100).after [.change 0, .poll 100]
    let more : List WatchInput := [.poll 110, .change 110, .poll 120, .poll 300]
    machine.state = .compiling ∧ MorePolls (replay [.changed 110] 120) more ∧
      (more.filterMap WatchInput.time?).Pairwise (· ≤ ·) ∧
      machine.after more ≠ machine.after (replay [.changed 110] 120) ∧
      machine.skips more = 1 ∧ machine.skips (replay [.changed 110] 120) = 0 := by
  refine ⟨by decide, ?_, by decide, by decide, by decide, by decide⟩
  exact .same _ (.same _ (.same _ (.poll 300 .nil)))

end WatchMachine

end ScreenCompiler
