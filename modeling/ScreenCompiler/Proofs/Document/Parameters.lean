import ScreenCompiler.Catalog.Standard
import ScreenCompiler.Proofs.Document.Composition
import ScreenCompiler.Proofs.Document.FunctionBodies

/-!
# Parameters of a function

The parameters of a function do not touch its body nor anything below it, with two exceptions.  A
stylesheet that opens among them is cut out with all that follows up to its end.  And a brace
among them is taken for the one that opens the body.
-/

namespace ScreenCompiler

open Text

namespace Stylesheet

theorem isSome_afterOpening?_of_parenthesis {text rest inside : List Char}
    (found : afterOpening? (text ++ ')' :: rest) = some inside) :
    (afterOpening? text).isSome = true := by
  obtain ⟨behindConst, const, found⟩ := Option.bind_eq_some_iff.mp found
  rw [afterPrefix?_append_cons (by decide)] at const
  obtain ⟨ownConst, foundConst, rfl⟩ := Option.map_eq_some_iff.mp const
  cases ownConst with
  | nil =>
      have solid : isBlank ')' = false := by decide
      simp [solid] at found
  | cons c ownConst =>
      simp only [List.cons_append, Option.ite_none_right_eq_some] at found
      obtain ⟨blank, found⟩ := found
      obtain ⟨behindName, name, found⟩ := Option.bind_eq_some_iff.mp found
      rw [trimStart_append_cons (by decide), afterPrefix?_append_cons (by decide)] at name
      obtain ⟨ownName, foundName, rfl⟩ := Option.map_eq_some_iff.mp name
      obtain ⟨behindSign, sign, found⟩ := Option.bind_eq_some_iff.mp found
      rw [trimStart_append_cons (by decide), afterPrefix?_append_cons (by decide)] at sign
      obtain ⟨ownSign, foundSign, rfl⟩ := Option.map_eq_some_iff.mp sign
      obtain ⟨behindCall, call, found⟩ := Option.bind_eq_some_iff.mp found
      rw [trimStart_append_cons (by decide), afterPrefix?_append_cons (by decide)] at call
      obtain ⟨ownCall, foundCall, rfl⟩ := Option.map_eq_some_iff.mp call
      rw [trimStart_append_cons (by decide), afterPrefix?_append_cons (by decide)] at found
      obtain ⟨own, foundOpening, -⟩ := Option.map_eq_some_iff.mp found
      rw [afterOpening?, foundConst, Option.bind_some]
      simp only [blank, ↓reduceIte]
      rw [foundName, Option.bind_some, foundSign, Option.bind_some, foundCall, Option.bind_some,
        foundOpening, Option.isSome_some]

/-- The parts of an opening with more text in front. -/
def moveBehind (front : List Char) :
    List Char × List Char × List Char → List Char × List Char × List Char
  | (before, opening, inside) => (front ++ before, opening, inside)

theorem find?_cons_of_none {c : Char} {rest : List Char}
    (noOpening : afterOpening? (c :: rest) = none) {front behind : List Char}
    (found : find? rest = (find? behind).map (moveBehind front)) :
    find? (c :: rest) = (find? behind).map (moveBehind (c :: front)) := by
  rw [find?, noOpening]
  simp only [found, Option.map_map]
  rfl

/-- A text that closes a parenthesis and opens no stylesheet has no part in one. -/
theorem find?_parenthesis {text : List Char} (plain : find? text = none) (rest : List Char) :
    find? (text ++ ')' :: rest) = (find? rest).map (moveBehind (text ++ [')'])) := by
  induction text with
  | nil =>
      apply find?_cons_of_none (afterOpening?_cons_of_ne (by decide) rest)
      exact (Option.map_id' ..).symm
  | cons c text inductionHypothesis =>
      have noOpening : afterOpening? (c :: text) = none := by
        rw [← Option.isNone_iff_eq_none, ← Option.isSome_eq_false_iff, isSome_find?_cons,
          Bool.or_eq_false_iff] at plain
        simpa using plain.1
      have later := find?_eq_none_of_infix (List.suffix_cons c text).isInfix plain
      apply find?_cons_of_none _ (inductionHypothesis later)
      rw [Option.eq_none_iff_forall_ne_some]
      intro inside found
      have here := @isSome_afterOpening?_of_parenthesis (c :: text) rest inside found
      rw [noOpening] at here
      exact absurd here (by decide)

/-- No blank stands behind a part of a name. -/
theorem afterOpening?_of_name {name : List Char} (solid : ∀ c ∈ name, isBlank c = false)
    (rest : List Char) : afterOpening? (name ++ '(' :: rest) = none := by
  rw [afterOpening?, Option.bind_eq_none_iff]
  intro behind found
  have shape := afterPrefix?_eq_some_iff.mp found
  rcases List.append_eq_append_iff.mp shape with ⟨front, const, tail⟩ | ⟨more, rfl, rfl⟩
  · cases front with
    | nil =>
        have blank : isBlank '(' = false := by decide
        obtain rfl : behind = '(' :: rest := by simpa using tail.symm
        simp [blank]
    | cons c front =>
        obtain ⟨rfl, -⟩ := List.cons.inj tail
        have inside : '(' ∈ "const".toList := by
          rw [const]
          simp
        exact absurd inside (by decide)
  · cases more with
    | nil =>
        have blank : isBlank '(' = false := by decide
        simp [blank]
    | cons c more =>
        have blank := solid c (by simp)
        simp [blank]

theorem find?_name {name : List Char} (solid : ∀ c ∈ name, isBlank c = false) (rest : List Char) :
    find? (name ++ '(' :: rest) = (find? rest).map (moveBehind (name ++ ['('])) := by
  induction name with
  | nil =>
      apply find?_cons_of_none (afterOpening?_cons_of_ne (by decide) rest)
      exact (Option.map_id' ..).symm
  | cons c name inductionHypothesis =>
      have noOpening := afterOpening?_of_name solid rest
      exact find?_cons_of_none noOpening (inductionHypothesis (List.forall_mem_cons.mp solid).2)

end Stylesheet

namespace Function

/-- The signature of a function with the brace that opens its body. -/
def callOf (name params : List Char) : List Char :=
  name ++ '(' :: params ++ ')' :: [' ', '{']

end Function

variable {name params : List Char}

namespace Stylesheet

/-- A signature that opens no stylesheet leaves those below it as they are. -/
theorem find?_callOf (solid : ∀ c ∈ name, isBlank c = false) (plain : find? params = none)
    (tail : List Char) :
    find? (Function.callOf name params ++ tail) =
      (find? tail).map (moveBehind (Function.callOf name params)) := by
  have front : find? (name ++ '(' :: params) = none := by
    rw [find?_name solid, plain]
    rfl
  have brace : find? (' ' :: '{' :: tail) = (find? tail).map (moveBehind [' ', '{']) := by
    apply find?_cons_of_none (afterOpening?_cons_of_ne (by decide) _)
    apply find?_cons_of_none (afterOpening?_cons_of_ne (by decide) _)
    exact (Option.map_id' ..).symm
  have shape : Function.callOf name params ++ tail =
      name ++ '(' :: params ++ ')' :: ' ' :: '{' :: tail := by
    simp [Function.callOf]
  rw [shape, find?_parenthesis front, brace, Option.map_map]
  congr 1
  funext parts
  simp [moveBehind, Function.callOf]

theorem isSome_block_cut (source : List Char) :
    (cut source).block.isSome = (find? source).isSome := by
  unfold cut
  cases find? source with
  | none => rfl
  | some parts =>
      obtain ⟨before, opening, inside⟩ := parts
      simp only
      split <;> rfl

theorem cut_append {front : List Char} (flat : '\n' ∉ front) {tail : List Char}
    (found : find? (front ++ tail) = (find? tail).map (moveBehind front)) :
    cut (front ++ tail) = { cut tail with remaining := front ++ (cut tail).remaining } := by
  have noFeeds : ∀ before, lineFeeds (front ++ before) = lineFeeds before := by
    intro before
    rw [lineFeeds_append, lineFeeds, List.count_eq_zero_of_not_mem flat, Nat.zero_add]
  unfold cut
  rw [found]
  cases find? tail with
  | none => rfl
  | some parts =>
      obtain ⟨before, opening, inside⟩ := parts
      simp only [Option.map_some, moveBehind]
      cases Closing.find parentheses .start inside with
      | closed body rest => simp [assemble]
      | unclosed nesting => simp [assemble, noFeeds]

end Stylesheet

namespace Function

/-- A function that is opened on its first line, with the lines behind its brace. -/
def called (name params : List Char) (raws : List (List Char)) : Opened where
  signature := ⟨false, name, params, true⟩
  tail := afterBrace (callOf name params ++ trimEnd (raws.headD []))
  lines := Line.numbered 2 raws.tail

theorem called_of_bare (bare : '{' ∉ params) (named : Script.isIdentifier name = true)
    (raws : List (List Char)) :
    called name params raws =
      ⟨⟨false, name, params, true⟩, trimEnd (raws.headD []), Line.numbered 2 raws.tail⟩ := by
  have bareName : '{' ∉ name := fun inside =>
    absurd (Script.isIdentifierPart_of_isIdentifier named '{' inside) (by decide)
  have bareCall : '{' ∉ name ++ '(' :: params ++ [')', ' '] := by
    simp [bareName, bare]
  have shape : callOf name params ++ trimEnd (raws.headD []) =
      (name ++ '(' :: params ++ [')', ' ']) ++ '{' :: trimEnd (raws.headD []) := by
    simp [callOf]
  rw [called, shape, afterBrace_append bareCall]

end Function

namespace Function

theorem text_callOf (named : Script.isIdentifier name = true) (first : List Char) :
    trim (callOf name params ++ first) = callOf name params ++ trimEnd first := by
  have front : trimStart (callOf name params ++ first) = callOf name params ++ first := by
    apply trimStart_eq_self
    intro c found
    cases name with
    | nil => exact absurd named Bool.false_ne_true
    | cons d more =>
        obtain rfl : d = c := Option.some.inj found
        exact Script.isBlank_of_isIdentifierPart
          (Script.isIdentifierPart_of_isIdentifier named d List.mem_cons_self)
  have shape : ∀ rest, callOf name params ++ rest =
      (name ++ '(' :: params ++ [')', ' ']) ++ '{' :: rest := by
    simp [callOf]
  rw [trim, front, shape, trimEnd_append_cons (by decide), ← shape]

theorem open?_callOf (named : Script.isIdentifier name = true) (allowed : name ∉ reservedNames)
    (noParenthesis : ')' ∉ params) {line : Line} {rest : List Char}
    (text : line.text = callOf name params ++ rest) (lines : List Line) :
    Block.simple? line.text = none ∧
      open? line lines =
        some ⟨⟨false, name, params, true⟩, afterBrace (callOf name params ++ rest), lines⟩ := by
  have call : callOf name params ++ rest =
      name ++ '(' :: (params ++ ')' :: ' ' :: '{' :: rest) := by
    simp [callOf]
  have read : Signature.read? line.text = some ⟨false, name, params, true⟩ := by
    have params? :
        Signature.params? (params ++ ')' :: ' ' :: '{' :: rest) = some (params, true) := by
      rw [params?_of_plain noParenthesis]
      rfl
    have signature := Signature.read?_call false named (params ++ ')' :: ' ' :: '{' :: rest)
    rw [params?] at signature
    rw [text, call]
    exact signature
  have reserved : reservedNames.contains name = false := by
    simpa using allowed
  constructor
  · have begins := Script.identifier?_of_isIdentifier named
      (parenthesis_ends (params ++ ')' :: ' ' :: '{' :: rest))
    rw [← call, ← text] at begins
    refine Block.simple?_of_call begins (fun _ => rfl) ?_
    rw [text, call]
    simp
  · have opened := open?_of_opens read rfl reserved lines
    rwa [text] at opened

/-- The text from the first brace of the parameters on is taken for the body. -/
theorem unlines_readBody_of_brace (named : Script.isIdentifier name = true)
    (brace : '{' ∈ params) (unclosed : (readBody (called name params [[]])).rest = none) :
    unlines (readBody (called name params [[]])).lines ≠ [] := by
  obtain ⟨front, rest, rfl, bare⟩ := List.eq_append_cons_of_mem brace
  have bareName : '{' ∉ name := fun inside =>
    absurd (Script.isIdentifierPart_of_isIdentifier named '{' inside) (by decide)
  have bareFront : '{' ∉ name ++ '(' :: front := by
    simp [bareName, bare]
  have opened : called name (front ++ '{' :: rest) [[]] =
      ⟨⟨false, name, front ++ '{' :: rest, true⟩, rest ++ [')', ' ', '{'], []⟩ := by
    have shape : callOf name (front ++ '{' :: rest) ++ trimEnd [] =
        name ++ '(' :: front ++ '{' :: (rest ++ [')', ' ', '{']) := by
      simp [callOf, trimEnd]
    rw [called, List.headD_cons, shape, afterBrace_append bareFront]
    rfl
  have solid : isAllBlank (rest ++ [')', ' ', '{']) = false := by
    rw [isAllBlank_append]
    exact Bool.and_false _
  rw [opened] at unclosed ⊢
  unfold readBody at unclosed ⊢
  simp only at unclosed ⊢
  split at unclosed
  · exact absurd unclosed (Option.some_ne_none _)
  · simp only [Body.read, inlinePart, solid, Bool.false_eq_true, ↓reduceIte]
    intro empty
    have blank : trim (rest ++ [')', ' ', '{']) = [] := by
      simpa [dedent, unlines] using empty
    rw [isAllBlank_of_trim_eq_nil blank] at solid
    exact absurd solid.symm Bool.false_ne_true

end Function

theorem Block.ofSource_callOf (named : Script.isIdentifier name = true)
    (allowed : name ∉ Function.reservedNames) (noParenthesis : ')' ∉ params)
    (flat : '\n' ∉ params) (remaining : List Char) :
    ofSource (Function.callOf name params ++ remaining) =
      ofOpened 1 (Function.called name params (remaining.splitOn '\n')) := by
  obtain ⟨first, more, pieces⟩ :=
    List.exists_cons_of_ne_nil (List.splitOn_ne_nil '\n' remaining)
  have lines : Function.callOf name params ++ remaining =
      unlines ((Function.callOf name params ++ first) :: more) := by
    rw [unlines_append_cons, ← pieces, unlines_splitOn]
  have flatLines : ∀ raw ∈ (Function.callOf name params ++ first) :: more, '\n' ∉ raw := by
    have flatPieces : ∀ raw ∈ first :: more, '\n' ∉ raw := fun raw inside =>
      notMem_of_mem_splitOn (pieces ▸ inside)
    obtain ⟨flatFirst, flatMore⟩ := List.forall_mem_cons.mp flatPieces
    have flatName : '\n' ∉ name := fun inside =>
      absurd (Script.isIdentifierPart_of_isIdentifier named '\n' inside) (by decide)
    refine List.forall_mem_cons.mpr ⟨?_, flatMore⟩
    simp [Function.callOf, flatName, flat, flatFirst]
  have text : Line.text ⟨1, Function.callOf name params ++ first⟩ =
      Function.callOf name params ++ trimEnd first := Function.text_callOf named first
  obtain ⟨simple, opens⟩ :=
    Function.open?_callOf named allowed noParenthesis text (Line.numbered 2 more)
  have numbered : Line.numbered 1 ((Function.callOf name params ++ first) :: more) =
      ⟨1, Function.callOf name params ++ first⟩ :: Line.numbered 2 more := by
    have solid : (trim (Function.callOf name params ++ first)).isEmpty = false := by
      rw [Function.text_callOf named]
      simp [Function.callOf]
    rw [Line.numbered, solid]
    rfl
  rw [lines, ofSource_unlines flatLines, numbered, ofLines_cons, simple, opens, pieces]
  rfl

namespace Document

/-- The document with other parameters for its first function. -/
def withParams (params : String) (document : Document) : Document :=
  { document with
    functions := document.functions.modifyHead fun function => { function with params } }

/-- The source of a function with some text behind the brace that opens it. -/
def callSource (name params tail : List Char) : List Char :=
  Function.callOf name params ++ tail

/-- Parameters of the first function are read apart from everything else. -/
theorem ofForest_ofFunction (number : Nat) (function : Function) (closed : Bool)
    (items : List Item) (params : String) :
    (ofForest (Forest.ofItems (Item.ofFunction number function closed ++ items))).functions.head? =
        some function ∧
      ofForest (Forest.ofItems (Item.ofFunction number { function with params } closed ++ items)) =
        (ofForest (Forest.ofItems (Item.ofFunction number function closed ++ items))).withParams
          params := by
  cases closed with
  | true =>
      simp only [Item.ofFunction, ↓reduceIte, List.nil_append, List.singleton_append]
      rw [Forest.ofItems_alone rfl, Forest.ofItems_alone rfl, ofForest_append, ofForest_append]
      exact ⟨rfl, rfl⟩
  | false =>
      simp only [Item.ofFunction, Bool.false_eq_true, ↓reduceIte, List.cons_append, List.nil_append]
      rw [Forest.ofItems_alone rfl, Forest.ofItems_alone rfl, Forest.ofItems_alone rfl,
        Forest.ofItems_alone rfl, ofForest_append, ofForest_append, ofForest_append,
        ofForest_append]
      exact ⟨rfl, rfl⟩

variable (catalog : Catalog)

/-- What stands behind a signature does not depend on it. -/
theorem exists_items (number : Nat) (tail : List Char) (lines : List Line) :
    ∃ body closed below, ∀ signature, (Block.ofOpened number ⟨signature, tail, lines⟩).flatMap
        (Block.items catalog) =
      Item.ofFunction number (.ofBody signature body) closed ++ below := by
  -- the body is read without a look at the signature, so any signature will do here
  refine ⟨Function.readBody ⟨⟨false, [], [], true⟩, tail, lines⟩,
    (Function.readBody ⟨⟨false, [], [], true⟩, tail, lines⟩).rest.isSome,
    (Block.ofOpened number ⟨⟨false, [], [], true⟩, tail, lines⟩).tail.flatMap
      (Block.items catalog), fun signature => ?_⟩
  rfl

section

variable {catalog} (named : Script.isIdentifier name = true)
variable (allowed : name ∉ Function.reservedNames)
variable (noParenthesis : ')' ∉ params) (flat : '\n' ∉ params)

include named allowed noParenthesis flat

theorem parse_callSource (plain : Stylesheet.find? params = none) (tail : List Char) :
    parse catalog (callSource name params tail) =
      { ofForest (Forest.ofItems ((Block.ofOpened 1 (Function.called name params
          ((Stylesheet.cut tail).remaining.splitOn '\n'))).flatMap (Block.items catalog))) with
        stylesheet := (Stylesheet.cut tail).block.map String.ofList
        diagnostics := stylesheetFaults (Stylesheet.cut tail) ++
          (ofForest (Forest.ofItems ((Block.ofOpened 1 (Function.called name params
            ((Stylesheet.cut tail).remaining.splitOn '\n'))).flatMap
              (Block.items catalog)))).diagnostics } := by
  have solid : ∀ c ∈ name, isBlank c = false := fun c inside =>
    Script.isBlank_of_isIdentifierPart (Script.isIdentifierPart_of_isIdentifier named c inside)
  have flatCall : '\n' ∉ Function.callOf name params := by
    have flatName : '\n' ∉ name := fun inside =>
      absurd (isBlank_newline.symm.trans (solid '\n' inside)) (by decide)
    simp [Function.callOf, flatName, flat]
  have cut := Stylesheet.cut_append flatCall (Stylesheet.find?_callOf solid plain tail)
  simp only [parse, callSource, cut, Item.ofSource]
  rw [Block.ofSource_callOf named allowed noParenthesis flat]
  rfl

/-- Parameters without a brace and without a stylesheet change nothing but themselves. -/
theorem parse_withParams (bare : '{' ∉ params) (plain : Stylesheet.find? params = none)
    (tail : List Char) :
    (parse catalog (callSource name [] tail)).functions.head?.map Function.name =
        some (String.ofList name) ∧
      parse catalog (callSource name params tail) =
        (parse catalog (callSource name [] tail)).withParams (String.ofList (trim params)) := by
  have noParams : Stylesheet.find? [] = none := by decide
  rw [parse_callSource named allowed noParenthesis flat plain,
    parse_callSource named allowed List.not_mem_nil List.not_mem_nil noParams,
    Function.called_of_bare bare named, Function.called_of_bare List.not_mem_nil named]
  generalize ((Stylesheet.cut tail).remaining.splitOn '\n') = raws
  obtain ⟨body, closed, below, items⟩ :=
    exists_items catalog 1 (trimEnd (raws.headD [])) (Line.numbered 2 raws.tail)
  rw [items, items]
  obtain ⟨first, same⟩ := ofForest_ofFunction 1 (.ofBody ⟨false, name, [], true⟩ body) closed below
    (String.ofList (trim params))
  have changed : Function.ofBody ⟨false, name, params, true⟩ body =
      { Function.ofBody ⟨false, name, [], true⟩ body with
        params := String.ofList (trim params) } := rfl
  constructor
  · rw [first]
    rfl
  · rw [changed, same]
    rfl

/-- A function with nothing behind its brace. -/
theorem parse_callSource_nil (plain : Stylesheet.find? params = none) :
    parse catalog (callSource name params []) =
      { ofNodes [] (if (Function.readBody (Function.called name params [[]])).rest.isSome then []
          else [.unterminatedFunction (String.ofList name) 1]) with
        functions := [.ofBody ⟨false, name, params, true⟩
          (Function.readBody (Function.called name params [[]]))] } := by
  have cut : Stylesheet.cut [] = ⟨none, [], none⟩ := by decide
  have lines : ([] : List Char).splitOn '\n' = [[]] := rfl
  have items : (Block.ofOpened 1 (Function.called name params [[]])).flatMap (Block.items catalog) =
      Item.ofFunction 1 (.ofBody ⟨false, name, params, true⟩
        (Function.readBody (Function.called name params [[]])))
        (Function.readBody (Function.called name params [[]])).rest.isSome := by
    rw [Block.ofOpened]
    cases closed : (Function.readBody (Function.called name params [[]])).rest with
    | none => exact List.append_nil _
    | some rest =>
        have suffix := Function.rest_readBody_suffix closed
        obtain rfl : rest = [] := List.suffix_nil.mp suffix
        simp only [Block.ofLines_nil]
        exact List.append_nil _
  rw [parse_callSource named allowed noParenthesis flat plain, cut]
  simp only [lines]
  rw [items, ofForest_function]
  rfl

/-- A brace among the parameters shows in the document when nothing stands behind. -/
theorem ne_withParams_of_brace (plain : Stylesheet.find? params = none) (brace : '{' ∈ params) :
    parse catalog (callSource name params []) ≠
      (parse catalog (callSource name [] [])).withParams (String.ofList (trim params)) := by
  have noParams : Stylesheet.find? [] = none := by decide
  have bare : Function.called name [] [[]] = ⟨⟨false, name, [], true⟩, [], []⟩ :=
    Function.called_of_bare List.not_mem_nil named [[]]
  have empty : Function.readBody ⟨⟨false, name, [], true⟩, [], []⟩ = ⟨[], none⟩ := rfl
  rw [parse_callSource_nil named allowed noParenthesis flat plain,
    parse_callSource_nil named allowed List.not_mem_nil List.not_mem_nil noParams, bare, empty]
  intro same
  have unclosed : (Function.readBody (Function.called name params [[]])).rest = none := by
    have faults := congrArg Document.diagnostics same
    rw [← Option.isNone_iff_eq_none, ← Option.isSome_eq_false_iff, ← Bool.not_eq_true]
    intro closed
    simp [ofNodes, withParams, closed] at faults
  have body : unlines (Function.readBody (Function.called name params [[]])).lines = [] := by
    have bodies := congrArg (fun document => document.functions.map Function.body) same
    have texts := congrArg (List.map String.toList) bodies
    simpa [withParams, Function.ofBody, unlines] using texts
  exact Function.unlines_readBody_of_brace named brace unclosed body

omit allowed noParenthesis flat in
/-- So does a stylesheet that opens among them. -/
theorem ne_withParams_of_stylesheet (opens : Stylesheet.find? params ≠ none) :
    parse catalog (callSource name params []) ≠
      (parse catalog (callSource name [] [])).withParams (String.ofList (trim params)) := by
  have solid : ∀ c ∈ name, isBlank c = false := fun c inside =>
    Script.isBlank_of_isIdentifierPart (Script.isIdentifierPart_of_isIdentifier named c inside)
  have isSome : ∀ source, (parse catalog source).stylesheet.isSome =
      (Stylesheet.find? source).isSome := by
    intro source
    rw [← Stylesheet.isSome_block_cut]
    exact Option.isSome_map
  have inside : (Stylesheet.find? (callSource name params [])).isSome = true := by
    have shape : callSource name params [] =
        (name ++ ['(']) ++ (params ++ [')', ' ', '{']) := by
      simp [callSource, Function.callOf]
    rw [shape]
    exact Stylesheet.isSome_find?_append _
      (Stylesheet.isSome_find?_append_right _ (Option.isSome_iff_ne_none.mpr opens))
  have outside : Stylesheet.find? (callSource name [] []) = none := by
    have noParams : Stylesheet.find? [] = none := by decide
    rw [callSource, Stylesheet.find?_callOf solid noParams, noParams]
    rfl
  intro same
  have stylesheets := congrArg (fun document => document.stylesheet.isSome) same
  change (parse catalog (callSource name params [])).stylesheet.isSome =
    (parse catalog (callSource name [] [])).stylesheet.isSome at stylesheets
  rw [isSome, isSome, inside, outside] at stylesheets
  exact absurd stylesheets (by decide)

/-- What the parameters of a function change, whatever stands behind its brace. -/
theorem parse_parameters_iff :
    (∀ tail, (parse catalog (callSource name [] tail)).functions.head?.map Function.name =
          some (String.ofList name) ∧
        parse catalog (callSource name params tail) =
          (parse catalog (callSource name [] tail)).withParams (String.ofList (trim params))) ↔
      '{' ∉ params ∧ Stylesheet.find? params = none := by
  constructor
  · intro same
    have plain : Stylesheet.find? params = none := by
      by_contra opens
      exact ne_withParams_of_stylesheet named opens (same []).2
    refine ⟨fun brace => ?_, plain⟩
    exact ne_withParams_of_brace named allowed noParenthesis flat plain brace (same []).2
  · rintro ⟨bare, plain⟩ tail
    exact parse_withParams named allowed noParenthesis flat bare plain tail

end

theorem parse_parameters_iff_sample :
    Script.isIdentifier "go".toList = true ∧ "go".toList ∉ Function.reservedNames ∧
      ')' ∉ " a, b = 1 ".toList ∧ '\n' ∉ " a, b = 1 ".toList ∧
      ((∀ tail, (parse .standard (callSource "go".toList [] tail)).functions.head?.map
            Function.name = some "go" ∧
          parse .standard (callSource "go".toList " a, b = 1 ".toList tail) =
            (parse .standard (callSource "go".toList [] tail)).withParams "a, b = 1") ↔
        '{' ∉ " a, b = 1 ".toList ∧ Stylesheet.find? " a, b = 1 ".toList = none) := by
  have named : Script.isIdentifier "go".toList = true := by decide
  have allowed : "go".toList ∉ Function.reservedNames := by decide
  have noParenthesis : ')' ∉ " a, b = 1 ".toList := by decide
  have flat : '\n' ∉ " a, b = 1 ".toList := by decide
  refine ⟨named, allowed, noParenthesis, flat, ?_⟩
  exact parse_parameters_iff named allowed noParenthesis flat

/-- The brace of a destructured parameter opens the body, which then ends before the line below. -/
theorem parse_destructured_parameter :
    Script.isIdentifier "f".toList = true ∧ "f".toList ∉ Function.reservedNames ∧
      ')' ∉ "\x7b a \x7d".toList ∧ '\n' ∉ "\x7b a \x7d".toList ∧
      Stylesheet.find? "\x7b a \x7d".toList = none ∧
      (parse .standard (callSource "f".toList [] "\n  return a\n\x7d".toList)).functions =
        [⟨"f", false, "", "return a"⟩] ∧
      (parse .standard
          (callSource "f".toList "\x7b a \x7d".toList "\n  return a\n\x7d".toList)).functions =
        [⟨"f", false, "\x7b a \x7d", "a"⟩] ∧
      parse .standard (callSource "f".toList "\x7b a \x7d".toList "\n  return a\n\x7d".toList) ≠
        (parse .standard (callSource "f".toList [] "\n  return a\n\x7d".toList)).withParams
          "\x7b a \x7d" := by
  have own : (parse .standard
      (callSource "f".toList [] "\n  return a\n\x7d".toList)).functions =
        [⟨"f", false, "", "return a"⟩] := by
    decide +kernel
  have destructured : (parse .standard
      (callSource "f".toList "\x7b a \x7d".toList "\n  return a\n\x7d".toList)).functions =
        [⟨"f", false, "\x7b a \x7d", "a"⟩] := by
    decide +kernel
  refine ⟨by decide, by decide, by decide, by decide, by decide, own, destructured, ?_⟩
  intro same
  have functions := congrArg Document.functions same
  rw [destructured, withParams, own] at functions
  exact absurd functions (by decide)

end Document

end ScreenCompiler
