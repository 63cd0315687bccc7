import ScreenCompiler.Proofs.Document.Descent

/-!
# A machine for markup

A machine with a stack of open elements reads items one after the other.  It never
looks ahead and never goes back: a closing tag pops what it ends, and the end of the
items pops the rest.  Recursive descent finds exactly what the machine finds.

The descent into one element is a stretch of the machine's run.  The machine that
starts the stretch differs from the one that ends it by the forest the descent
returns, up to elements that are about to be popped.  Items without faults leave the
machine where it started, since an element that is still open at the end is at fault.
-/

namespace ScreenCompiler

/-- An element whose closing tag has not been read, with its children so far. -/
structure OpenElement where
  tag : String
  props : Props
  line : Nat
  children : List Node

structure Machine where
  /-- The open elements, innermost first. -/
  stack : List OpenElement
  /-- The nodes outside all open elements. -/
  nodes : List Node
  declarations : List Declaration
  diagnostics : List Diagnostic

namespace Machine

def start : Machine := ⟨[], [], [], []⟩

def tags (machine : Machine) : List String :=
  machine.stack.map OpenElement.tag

/-- Nodes become the last children of the innermost open element, if there is one. -/
def add (machine : Machine) (nodes : List Node) : Machine :=
  match machine.stack with
  | [] => { machine with nodes := machine.nodes ++ nodes }
  | element :: outer =>
      { machine with
        stack := { element with children := element.children ++ nodes } :: outer }

def report (machine : Machine) (diagnostics : List Diagnostic) : Machine :=
  { machine with diagnostics := machine.diagnostics ++ diagnostics }

def declare (machine : Machine) (declarations : List Declaration) : Machine :=
  { machine with declarations := machine.declarations ++ declarations }

def enter (machine : Machine) (tag : String) (props : Props) (line : Nat) : Machine :=
  { machine with stack := ⟨tag, props, line, []⟩ :: machine.stack }

/-- The innermost element ends and becomes a node of its parent. -/
def leave (closed : Bool) (machine : Machine) : Machine :=
  match machine.stack with
  | [] => machine
  | element :: outer =>
      (add { machine with stack := outer }
        [.element element.tag element.props element.children element.line]).report
          (if closed then [] else [.unterminatedTag element.tag element.line])

@[simp]
theorem tags_add (machine : Machine) (nodes : List Node) :
    (machine.add nodes).tags = machine.tags := by
  unfold add
  split
  · rfl
  · rename_i element outer found
    simp [tags, found]

theorem tags_leave (closed : Bool) (machine : Machine) :
    (machine.leave closed).tags = machine.tags.tail := by
  unfold leave
  split
  · rename_i found
    simp [tags, found]
  · rename_i element outer found
    change (add _ _).tags = _
    rw [tags_add]
    simp [tags, found]

theorem length_stack_leave {closed : Bool} {machine : Machine} {element : OpenElement}
    {outer : List OpenElement} (found : machine.stack = element :: outer) :
    (machine.leave closed).stack.length < machine.stack.length := by
  have popped := congrArg List.length (tags_leave closed machine)
  simp only [tags, List.length_map, List.length_tail, found, List.length_cons] at popped ⊢
  omega

/-- Elements end until the innermost one of the given tag has ended; those above it are at
fault. -/
def closeInnermost (tag : String) (machine : Machine) : Machine :=
  match _found : machine.stack with
  | [] => machine
  | element :: _ =>
      if element.tag = tag then machine.leave true
      else closeInnermost tag (machine.leave false)
termination_by machine.stack.length
decreasing_by exact length_stack_leave _found

def close (machine : Machine) (tag : String) (line : Nat) : Machine :=
  if tag ∈ machine.tags then machine.closeInnermost tag
  else machine.report [.unmatchedClosingTag tag line]

/-- At the end of the items every open element ends, innermost first, and is at fault. -/
def finish (machine : Machine) : Machine :=
  match _found : machine.stack with
  | [] => machine
  | _ :: _ => finish (machine.leave false)
termination_by machine.stack.length
decreasing_by exact length_stack_leave _found

def step (machine : Machine) : Item → Machine
  | .fault diagnostic => machine.report [diagnostic]
  | .declaration declaration => machine.declare [declaration]
  | .word name =>
      if machine.stack.isEmpty then machine.declare [.imports [Import.ofModuleName name]]
      else machine.add [.text (String.ofList name)]
  | .text run => machine.add [.text run]
  | .leaf tag props line => machine.add [.element tag props [] line]
  | .opening tag props line => machine.enter tag props line
  | .closing tag line => machine.close tag line

def run (machine : Machine) (items : List Item) : Machine :=
  (items.foldl step machine).finish

/-- What a machine has put out. -/
def forest (machine : Machine) : Forest :=
  ⟨machine.nodes, machine.declarations, machine.diagnostics⟩

/-- The machine with a forest read inside its innermost element. -/
def absorb (machine : Machine) (forest : Forest) : Machine :=
  ((machine.add forest.nodes).declare forest.declarations).report forest.diagnostics

@[simp]
theorem tags_absorb (machine : Machine) (forest : Forest) :
    (machine.absorb forest).tags = machine.tags :=
  tags_add machine forest.nodes

theorem absorb_absorb (machine : Machine) (first second : Forest) :
    (machine.absorb first).absorb second = machine.absorb (first ++ second) := by
  obtain ⟨stack, nodes, declarations, diagnostics⟩ := machine
  cases stack with
  | nil => simp [absorb, add, declare, report]
  | cons element outer => simp [absorb, add, declare, report]

theorem absorb_empty (machine : Machine) : machine.absorb Forest.empty = machine := by
  obtain ⟨stack, nodes, declarations, diagnostics⟩ := machine
  cases stack with
  | nil => simp [absorb, add, declare, report, Forest.empty]
  | cons element outer => simp [absorb, add, declare, report, Forest.empty]

/-- Reading the children of an element and ending it is reading the element. -/
theorem leave_absorb_enter (closed : Bool) (machine : Machine) (tag : String) (props : Props)
    (line : Nat) (children : Forest) :
    ((machine.enter tag props line).absorb children).leave closed =
      machine.absorb (Forest.wrap tag props line closed children) := by
  obtain ⟨stack, nodes, declarations, diagnostics⟩ := machine
  cases stack with
  | nil => simp [enter, absorb, leave, add, declare, report, Forest.wrap]
  | cons element outer => simp [enter, absorb, leave, add, declare, report, Forest.wrap]

theorem step_of_alone? {machine : Machine} {item : Item} {forest : Forest}
    (found : Forest.alone? (!machine.tags.isEmpty) item = some forest) :
    machine.step item = machine.absorb forest := by
  obtain ⟨stack, nodes, declarations, diagnostics⟩ := machine
  cases item <;> simp only [Forest.alone?, Option.some.injEq, reduceCtorEq] at found <;>
    subst found <;> cases stack <;>
      simp [step, absorb, add, declare, report, tags, Forest.ofDiagnostic, Forest.ofDeclaration,
        Forest.ofNode, Forest.ofWord]

theorem finish_of_tags_cons {machine : Machine} {tag : String} {outer : List String}
    (found : machine.tags = tag :: outer) : machine.finish = (machine.leave false).finish := by
  obtain ⟨stack, nodes, declarations, diagnostics⟩ := machine
  cases stack with
  | nil => simp [tags] at found
  | cons element rest =>
      rw [finish]

theorem finish_of_tags_nil {machine : Machine} (found : machine.tags = []) :
    machine.finish = machine := by
  obtain ⟨stack, nodes, declarations, diagnostics⟩ := machine
  cases stack with
  | nil => rw [finish]
  | cons element rest => simp [tags] at found

theorem close_of_top {machine : Machine} {tag : String} {outer : List String} (line : Nat)
    (found : machine.tags = tag :: outer) : machine.close tag line = machine.leave true := by
  obtain ⟨stack, nodes, declarations, diagnostics⟩ := machine
  cases stack with
  | nil => simp [tags] at found
  | cons element rest =>
      simp only [tags, List.map_cons, List.cons.injEq] at found
      rw [close, if_pos (by simp [tags, found.1]), closeInnermost]
      simp [found.1]

theorem close_of_deeper {machine : Machine} {tag top : String} {outer : List String} (line : Nat)
    (found : machine.tags = top :: outer) (other : top ≠ tag) (deeper : tag ∈ outer) :
    machine.close tag line = (machine.leave false).close tag line := by
  have remains : tag ∈ (machine.leave false).tags := by
    rw [tags_leave, found]
    exact deeper
  have before : tag ∈ machine.tags := by
    rw [found]
    exact List.mem_cons_of_mem _ deeper
  rw [close, close, if_pos before, if_pos remains]
  obtain ⟨stack, nodes, declarations, diagnostics⟩ := machine
  cases stack with
  | nil => simp [tags] at found
  | cons element rest =>
      simp only [tags, List.map_cons, List.cons.injEq] at found
      rw [closeInnermost]
      simp [found.1, other]

/-- An element that its descent left without its closing tag is popped by whatever comes next. -/
theorem run_of_not_closed {machine : Machine} {top : String} {outer : List String}
    {items : List Item} (found : machine.tags = top :: outer)
    (stops : items = [] ∨ ∃ tag line rest,
      items = .closing tag line :: rest ∧ tag ∈ outer ∧ top ≠ tag) :
    machine.run items = (machine.leave false).run items := by
  rcases stops with rfl | ⟨tag, line, rest, rfl, deeper, other⟩
  · exact finish_of_tags_cons found
  · rw [run, run, List.foldl_cons, List.foldl_cons, step, step,
      close_of_deeper line found other deeper]

theorem run_cons (machine : Machine) (item : Item) (items : List Item) :
    machine.run (item :: items) = (machine.step item).run items := rfl

/-- Behind the children of an element stands its own closing tag, or what pops it. -/
theorem run_absorb_enter {machine : Machine} {tag : String} {props : Props} {line : Nat}
    {children : Forest} {enclosing : List String} {remaining : List Item}
    (stops : remaining = [] ∨ ∃ other place rest,
      remaining = .closing other place :: rest ∧ other ∈ tag :: enclosing)
    (inside : machine.tags = enclosing) :
    ((machine.enter tag props line).absorb children).run remaining =
      (machine.absorb (Forest.wrap tag props line
        (Forest.afterClosing tag remaining).1 children)).run
          (Forest.afterClosing tag remaining).2 := by
  have top : ((machine.enter tag props line).absorb children).tags = tag :: enclosing := by
    rw [tags_absorb, ← inside]
    rfl
  rcases stops with rfl | ⟨other, place, rest, rfl, matched⟩
  · rw [run_of_not_closed top (.inl rfl), leave_absorb_enter]
    rfl
  · by_cases same : other = tag
    · subst same
      rw [run_cons, step, close_of_top place top, leave_absorb_enter]
      simp [Forest.afterClosing]
    · have deeper : other ∈ enclosing := (List.mem_cons.mp matched).resolve_left same
      rw [run_of_not_closed top (.inr ⟨other, place, rest, rfl, deeper, Ne.symm same⟩),
        leave_absorb_enter]
      simp [Forest.afterClosing, same]

/-- The machine runs through the items of a descent and ends as if it had read their forest. -/
theorem run_of_descent {enclosing : List String} {items final : List Item} {forest : Forest}
    (descent : Forest.Descent enclosing items forest final) (machine : Machine)
    (inside : machine.tags = enclosing) :
    machine.run items = (machine.absorb forest).run final := by
  induction descent generalizing machine with
  | done => rw [absorb_empty]
  | leave matched => rw [absorb_empty]
  | unmatched unmatched _ inductionHypothesis =>
      rename_i tag line rest after final _
      have reported : machine.step (.closing tag line) =
          machine.absorb (Forest.ofDiagnostic (.unmatchedClosingTag tag line)) := by
        rw [step, close, if_neg (inside ▸ unmatched)]
        have alone : Forest.alone? (!machine.tags.isEmpty)
            (.fault (.unmatchedClosingTag tag line)) = some _ := rfl
        exact step_of_alone? alone
      rw [run_cons, reported, inductionHypothesis _ (by rw [tags_absorb, inside]), absorb_absorb]
  | alone found _ inductionHypothesis =>
      rw [run_cons, step_of_alone? (inside ▸ found),
        inductionHypothesis _ (by rw [tags_absorb, inside]), absorb_absorb]
  | @enter enclosing tag props line rest children remaining after final inner _ innerRun outerRun =>
      have entered : (machine.enter tag props line).tags = tag :: enclosing := by
        rw [← inside]
        rfl
      rw [run_cons, step, innerRun _ entered, ← absorb_absorb, ← outerRun _ (by
        rw [tags_absorb, inside])]
      exact run_absorb_enter inner.stops inside

theorem forest_run_start (items : List Item) : (start.run items).forest = Forest.ofItems items := by
  rw [run_of_descent (Forest.descent_ofItems items) start rfl]
  exact congrArg forest (finish_of_tags_nil rfl)

theorem diagnostics_leave (closed : Bool) (machine : Machine) :
    machine.diagnostics <+: (machine.leave closed).diagnostics := by
  obtain ⟨stack, nodes, declarations, diagnostics⟩ := machine
  cases stack with
  | nil => exact List.prefix_rfl
  | cons element outer => cases outer <;> exact List.prefix_append ..

theorem diagnostics_finish (machine : Machine) :
    machine.diagnostics <+: machine.finish.diagnostics := by
  fun_induction finish machine with
  | case1 machine found => exact List.prefix_rfl
  | case2 machine element outer found inductionHypothesis =>
      exact (diagnostics_leave false machine).trans inductionHypothesis

theorem tags_of_finish {machine : Machine} (clean : machine.finish.diagnostics = []) :
    machine.tags = [] := by
  obtain ⟨stack, nodes, declarations, diagnostics⟩ := machine
  cases stack with
  | nil => rfl
  | cons element outer =>
      rw [finish_of_tags_cons rfl] at clean
      have before := diagnostics_finish (leave false ⟨element :: outer, nodes, declarations,
        diagnostics⟩)
      rw [clean, List.prefix_nil] at before
      cases outer <;> simp [leave, add, report] at before

theorem run_append (machine : Machine) (first second : List Item) :
    machine.run (first ++ second) = (first.foldl step machine).run second := by
  rw [run, List.foldl_append, run]

end Machine

theorem Forest.ofItems_append {first : List Item} (clean : (ofItems first).diagnostics = [])
    (second : List Item) : ofItems (first ++ second) = ofItems first ++ ofItems second := by
  have run : Machine.start.run first = Machine.start.absorb (ofItems first) := by
    rw [Machine.run_of_descent (descent_ofItems first) Machine.start rfl]
    exact Machine.finish_of_tags_nil (Machine.tags_absorb ..)
  have ended : (first.foldl Machine.step Machine.start).finish.diagnostics = [] := by
    rw [← clean, ← Machine.forest_run_start]
    rfl
  have outside := Machine.tags_of_finish ended
  have reached : first.foldl Machine.step Machine.start = Machine.start.absorb (ofItems first) := by
    rw [← run, Machine.run, Machine.finish_of_tags_nil outside]
  have whole : Machine.start.run (first ++ second) =
      Machine.start.absorb (ofItems first ++ ofItems second) := by
    rw [Machine.run_append, Machine.run_of_descent (descent_ofItems second) _ outside, reached,
      Machine.absorb_absorb]
    exact Machine.finish_of_tags_nil (Machine.tags_absorb ..)
  rw [← Machine.forest_run_start, whole]
  rfl

end ScreenCompiler
