import ScreenCompiler.Proofs.Document.Composition
import ScreenCompiler.Proofs.Document.Signatures

/-!
# Functions that are left open

A function that a source leaves open reads on into what is put behind the source.  A brace
that closes it there is the end of it, and nothing is kept of what stands behind the brace
on its line.
-/

namespace ScreenCompiler

open Text

namespace Function

/-- Nothing of a body's last line is kept behind the brace that closes the body. -/
theorem readBody_append_tail {opened : Opened} (last : opened.lines = [])
    (closed : (readBody opened).rest.isSome = true) (more : List Char) :
    readBody { opened with tail := opened.tail ++ more } = readBody opened := by
  unfold readBody at closed ⊢
  cases found : Closing.find braces .start opened.tail with
  | closed before after => simp only [Closing.find_append_of_closed more found]
  | unclosed nesting =>
      rw [found, last] at closed
      simp [Body.read] at closed

/-- A body that is left open is read on in the lines below it. -/
theorem Body.read_append_of_open {depth : Nat} {above : List Line}
    (isOpen : (read depth above).rest = none) :
    ∃ inner, ∀ below, read depth (above ++ below) =
      ⟨(read depth above).lines ++ (read inner below).lines, (read inner below).rest⟩ := by
  induction above generalizing depth with
  | nil => exact ⟨depth, fun below => rfl⟩
  | cons line above inductionHypothesis =>
      simp only [read] at isOpen ⊢
      cases found : Closing.find braces ⟨depth, none, false⟩ line.raw with
      | closed before after => simp [found] at isOpen
      | unclosed nesting =>
          rw [found] at isOpen
          obtain ⟨inner, goesOn⟩ := inductionHypothesis isOpen
          refine ⟨inner, fun below => ?_⟩
          simp only [List.cons_append, read, found, goesOn]

theorem Body.read_last {depth number : Nat} {raw : List Char}
    (closed : (read depth [⟨number, raw⟩]).rest.isSome = true) (more : List Char) :
    read depth [⟨number, raw ++ more⟩] = read depth [⟨number, raw⟩] := by
  simp only [read] at closed ⊢
  cases found : Closing.find braces ⟨depth, none, false⟩ raw with
  | closed before after => simp only [Closing.find_append_of_closed more found]
  | unclosed nesting => simp [found] at closed

theorem readBody_append_last {opened : Opened} (isOpen : (readBody opened).rest = none)
    {number : Nat} {raw : List Char}
    (closed : (readBody (opened.append [⟨number, raw⟩])).rest.isSome = true) (more : List Char) :
    readBody (opened.append [⟨number, raw ++ more⟩]) =
      readBody (opened.append [⟨number, raw⟩]) := by
  unfold readBody at isOpen closed ⊢
  simp only [Opened.append] at closed ⊢
  cases found : Closing.find braces .start opened.tail with
  | closed before after => simp [found] at isOpen
  | unclosed nesting =>
      rw [found] at isOpen closed
      obtain ⟨inner, goesOn⟩ := Body.read_append_of_open isOpen
      simp only [goesOn] at closed ⊢
      rw [Body.read_last closed more]

theorem afterBrace_append_of_mem {text : List Char} (brace : '{' ∈ text) (more : List Char) :
    afterBrace (text ++ more) = afterBrace text ++ more := by
  obtain ⟨front, behind, rfl, bare⟩ := List.eq_append_cons_of_mem brace
  rw [List.append_assoc, List.cons_append, afterBrace_append bare, afterBrace_append bare]

end Function

namespace Line

variable (number : Nat) (raw more : List Char)

theorem text_closing : text ⟨number, raw ++ '}' :: more⟩ =
    text ⟨number, raw ++ ['}']⟩ ++ trimEnd more := by
  have solid : isBlank '}' = false := by decide
  simp only [text, trim, trimStart_append_cons solid, trimEnd_append_cons solid]
  simp [trimEnd]

/-- A line with a brace behind it is the line, some blanks and the brace. -/
theorem exists_text_closing :
    ∃ gap, text ⟨number, raw ++ ['}']⟩ = text ⟨number, raw⟩ ++ (gap ++ ['}']) := by
  have solid : isBlank '}' = false := by decide
  obtain ⟨gap, -, split⟩ := exists_trimEnd_append (trimStart raw)
  refine ⟨gap, ?_⟩
  rw [← List.append_assoc]
  simp only [text, trim]
  rw [← split, trimStart_append_cons solid, trimEnd_append_cons solid]
  rfl

theorem numbered_closing :
    numbered number [raw ++ '}' :: more] = [⟨number, raw ++ '}' :: more⟩] := by
  have kept : (trim (raw ++ '}' :: more)).isEmpty = false := by
    have solid : isBlank '}' = false := by decide
    simp [trim, trimStart_append_cons solid, trimEnd_append_cons solid]
  rw [numbered, kept]
  rfl

/-- A line that starts with a brace is kept and does so whatever stands behind it. -/
theorem starts_with_brace {raw more : List Char}
    (brace : startsWith ['{'] (text ⟨number, raw ++ '}' :: more⟩) = true) (behind : List Char) :
    numbered number [raw ++ behind] = [⟨number, raw ++ behind⟩] ∧
      startsWith ['{'] (text ⟨number, raw ++ behind⟩) = true := by
  cases front : trimStart raw with
  | nil =>
      have solid : isBlank '}' = false := by decide
      have whole := trimEnd_append_cons solid [] more
      rw [text, trim, trimStart_append_cons solid, front, whole] at brace
      exact absurd brace (by simp [startsWith, afterPrefix?])
  | cons c rest =>
      have shape := trim_append_of_trimStart front
      rw [text, shape] at brace
      obtain rfl : '{' = c := by simpa [startsWith, afterPrefix?] using brace
      constructor
      · simp [numbered, shape]
      · simp [text, shape, startsWith, afterPrefix?]

end Line

namespace Function

variable {line : Line} {lines : List Line} {opened : Opened} {number : Nat} {raw : List Char}

/-- A function that is opened above the end of a source reads on into it, unless the brace of the
function stands there. -/
theorem open?_closing
    (found : open? line (lines ++ Line.numbered number [raw ++ ['}']]) = some opened) :
    (∃ inner : Opened, inner.lines <:+ lines ∧ ∀ behind,
      open? line (lines ++ Line.numbered number [raw ++ behind]) =
        some (inner.append (Line.numbered number [raw ++ behind]))) ∨
      lines = [] ∧ opened.lines = [] ∧ ∀ more : List Char,
        open? line (lines ++ Line.numbered number [raw ++ '}' :: more]) =
          some { opened with tail := opened.tail ++ trimEnd more } := by
  cases lines with
  | cons next lines =>
      rw [open?_cons_append] at found
      obtain ⟨inner, opens, -⟩ := Option.map_eq_some_iff.mp found
      refine .inl ⟨inner, lines_open?_suffix opens, fun behind => ?_⟩
      rw [open?_cons_append, opens, Option.map_some]
  | nil =>
      rw [List.nil_append, Line.numbered_closing] at found
      obtain ⟨read, allowed⟩ := signature_of_open? found
      simp only [open?, read, allowed, Bool.false_eq_true, ↓reduceIte] at found
      obtain ⟨opens, found⟩ := Option.ite_none_right_eq_some.mp found
      cases opensHere : opened.signature.opens with
      | true =>
          refine .inl ⟨⟨opened.signature, afterBrace line.text, []⟩, List.suffix_rfl, ?_⟩
          exact fun behind => open?_of_opens read opensHere allowed _
      | false =>
          rw [opensHere, Bool.false_or] at opens
          have starts := Line.starts_with_brace number opens
          by_cases brace : hasBrace line.text = true
          · refine .inl ⟨⟨opened.signature, afterBrace line.text, []⟩, List.suffix_rfl, ?_⟩
            intro behind
            obtain ⟨kept, isBrace⟩ := starts behind
            rw [kept]
            simp [open?, read, allowed, isBrace, brace, Opened.append]
          · rw [if_neg brace] at found
            have same := Option.some.inj found
            refine .inr ⟨rfl, congrArg Opened.lines same.symm, fun more => ?_⟩
            have inside : '{' ∈ Line.text ⟨number, raw ++ ['}']⟩ := by
              obtain ⟨rest, shape⟩ := Option.isSome_iff_exists.mp opens
              rw [afterPrefix?_eq_some_iff.mp shape]
              exact List.mem_cons_self
            have tail : opened.tail ++ trimEnd more =
                afterBrace (Line.text ⟨number, raw ++ '}' :: more⟩) := by
              rw [Line.text_closing, afterBrace_append_of_mem inside, ← same]
            rw [tail, Line.numbered_closing, ← same]
            simp [open?, read, allowed, (starts ('}' :: more)).2, brace]

end Function

namespace Block

/-- Whether a block is a function whose body is never closed. -/
def isUnclosed : Block → Bool
  | function _ _ closed => !closed
  | _ => false

/-- Blocks of a source with an end: where they leave a function open without one, and a brace ends
what they declare, more text behind the brace changes nothing. -/
def Settles (blocks : List Char → List Block) : Prop :=
  (∃ block ∈ blocks [], block.isUnclosed = true) →
    (∀ block ∈ blocks ['}'], block.mayDeclare = true) →
      ∀ more, blocks ('}' :: more) = blocks ['}']

theorem Settles.cons {blocks : List Char → List Block} (settles : Settles blocks) {first : Block}
    (closed : first.isUnclosed = false) : Settles fun ending => first :: blocks ending := by
  rintro ⟨block, membership, isUnclosed⟩ declared more
  have later : block ∈ blocks [] := by
    rcases List.mem_cons.mp membership with rfl | later
    · exact absurd (closed.symm.trans isUnclosed) Bool.false_ne_true
    · exact later
  have same := settles ⟨block, later, isUnclosed⟩ (List.forall_mem_cons.mp declared).2 more
  exact congrArg (first :: ·) same

variable {number : Nat} {raw : List Char}

/-- The block of the function that is read from the last line alone. -/
theorem ofOpened_append_tail {opened : Function.Opened} (last : opened.lines = [])
    (declared : ∀ block ∈ ofOpened number opened, block.mayDeclare = true) (more : List Char) :
    ofOpened number { opened with tail := opened.tail ++ more } = ofOpened number opened := by
  have closed : (Function.readBody opened).rest.isSome = true := declared _ List.mem_cons_self
  simp only [ofOpened, Function.readBody_append_tail last closed more]

theorem settles_ofOpened {inner : Function.Opened}
    (below : ∀ rest, rest <:+ inner.lines →
      Settles fun ending => ofLines (rest ++ Line.numbered number [raw ++ ending])) (first : Nat) :
    Settles fun ending =>
      ofOpened first (inner.append (Line.numbered number [raw ++ ending])) := by
  cases closed : (Function.readBody inner).rest with
  | some rest =>
      have shape : ∀ ending,
          ofOpened first (inner.append (Line.numbered number [raw ++ ending])) =
            function first (Function.ofBody inner.signature ⟨(Function.readBody inner).lines, none⟩)
              true :: ofLines (rest ++ Line.numbered number [raw ++ ending]) := by
        intro ending
        rw [ofOpened, Function.readBody_append _ closed]
        rfl
      simp only [shape]
      exact (below rest (Function.rest_readBody_suffix closed)).cons rfl
  | none =>
      rintro - declared more
      simp only [Line.numbered_closing] at declared ⊢
      have isClosed :
          (Function.readBody (inner.append [⟨number, raw ++ ['}']⟩])).rest.isSome = true :=
        declared _ List.mem_cons_self
      have body := Function.readBody_append_last closed isClosed more
      rw [List.append_assoc, List.singleton_append] at body
      simp only [ofOpened, body]
      rfl

/-- A line that leaves a function open holds its signature and the brace behind it. -/
theorem exists_signature_of_isUnclosed {block : Block}
    (membership : block ∈ ofLines (Line.numbered number [raw]))
    (isUnclosed : block.isUnclosed = true) :
    simple? (Line.text ⟨number, raw⟩) = none ∧ ∃ signature,
      Function.Signature.read? (Line.text ⟨number, raw⟩) = some signature ∧
        signature.isReserved = false ∧ signature.opens = true := by
  have kept : Line.numbered number [raw] = [⟨number, raw⟩] := by
    rw [Line.numbered] at membership ⊢
    split
    · rename_i blank
      rw [if_pos blank, Line.numbered, ofLines_nil] at membership
      exact absurd membership List.not_mem_nil
    · rfl
  rw [kept] at membership
  have stands := standsIn_of_mem_ofLines block membership
  constructor
  · cases simple : simple? (Line.text ⟨number, raw⟩) with
    | none => rfl
    | some found =>
        rw [ofLines_cons, simple] at membership
        simp only [ofLines_nil, List.mem_singleton] at membership
        subst membership
        cases declares_of_simple? simple <;> exact absurd isUnclosed Bool.false_ne_true
  · cases stands with
    | @function line below opened within opens =>
        obtain ⟨rfl, rfl⟩ : line = ⟨number, raw⟩ ∧ below = [] := by
          simpa using within.eq_of_length_le (by simp)
        obtain ⟨read, allowed⟩ := Function.signature_of_open? opens
        simp only [Function.open?, read, allowed, Bool.false_eq_true, ↓reduceIte] at opens
        obtain ⟨isOpening, -⟩ := Option.ite_none_right_eq_some.mp opens
        exact ⟨opened.signature, read, allowed, isOpening⟩
    | simple _ simple =>
        cases declares_of_simple? simple <;> exact absurd isUnclosed Bool.false_ne_true
    | _ => exact absurd isUnclosed Bool.false_ne_true

/-- A signature is read with whatever stands behind the end of its line. -/
theorem ofLines_signature {signature : Function.Signature}
    (simple : simple? (Line.text ⟨number, raw⟩) = none)
    (read : Function.Signature.read? (Line.text ⟨number, raw⟩) = some signature)
    (allowed : signature.isReserved = false) (opens : signature.opens = true) (more : List Char) :
    ofLines (Line.numbered number [raw ++ '}' :: more]) =
      ofOpened number ⟨signature,
        Function.afterBrace (Line.text ⟨number, raw ++ ['}']⟩) ++ trimEnd more, []⟩ := by
  obtain ⟨gap, closing⟩ := Line.exists_text_closing number raw
  have behind := Line.text_closing number raw more
  have whole : Line.text ⟨number, raw ++ '}' :: more⟩ =
      Line.text ⟨number, raw⟩ ++ (gap ++ '}' :: trimEnd more) := by
    rw [behind, closing]
    simp
  have simpleMore := simple?_append read simple (gap ++ '}' :: trimEnd more)
  have readMore := Function.Signature.read?_append read opens (gap ++ '}' :: trimEnd more)
  rw [← whole] at simpleMore readMore
  have brace : '{' ∈ Line.text ⟨number, raw ++ ['}']⟩ := by
    rw [closing]
    have inside := Function.hasBrace_of_opens read opens
    exact List.mem_append_left _ (List.contains_iff_mem.mp inside)
  rw [Line.numbered_closing, ofLines_cons, simpleMore,
    Function.open?_of_opens readMore opens allowed, behind,
    Function.afterBrace_append_of_mem brace]

theorem settles_last : Settles fun ending => ofLines (Line.numbered number [raw ++ ending]) := by
  rintro ⟨block, membership, isUnclosed⟩ declared more
  beta_reduce at membership declared ⊢
  rw [List.append_nil] at membership
  obtain ⟨simple, signature, read, allowed, opens⟩ :=
    exists_signature_of_isUnclosed membership isUnclosed
  have blocks := ofLines_signature simple read allowed opens
  rw [blocks []] at declared
  rw [blocks more, blocks []]
  have closing : trimEnd [] = [] := rfl
  rw [closing, List.append_nil] at declared ⊢
  exact ofOpened_append_tail rfl declared (trimEnd more)

/-- Where a function is left open, nothing is kept behind the brace that closes it. -/
theorem settles_ofLines {above : List Line} (solid : ∀ line ∈ above, trim line.text ≠ []) :
    Settles fun ending => ofLines (above ++ Line.numbered number [raw ++ ending]) := by
  induction length : above.length using Nat.strong_induction_on generalizing above with
  | _ count inductionHypothesis =>
    subst length
    cases above with
    | nil => exact settles_last
    | cons line lines =>
        obtain ⟨solidLine, solid⟩ := List.forall_mem_cons.mp solid
        have below : ∀ rest, rest <:+ lines →
            Settles fun ending => ofLines (rest ++ Line.numbered number [raw ++ ending]) := by
          intro rest suffix
          exact inductionHypothesis rest.length (Nat.lt_succ_of_le suffix.length_le)
            (fun line membership => solid line (suffix.subset membership)) rfl
        simp only [List.cons_append, ofLines_cons]
        cases simple : simple? line.text with
        | some block =>
            refine (below lines List.suffix_rfl).cons ?_
            cases declares_of_simple? simple <;> rfl
        | none =>
            intro unclosed declared more
            beta_reduce at unclosed declared ⊢
            cases opens : Function.open? line (lines ++ Line.numbered number [raw ++ ['}']]) with
            | none =>
                rw [opens] at declared
                obtain ⟨block, membership, other⟩ := exists_mem_ofText solidLine line.number
                  (lines ++ Line.numbered number [raw ++ ['}']])
                rw [declared block membership] at other
                exact absurd other.symm Bool.false_ne_true
            | some opened =>
                rcases Function.open?_closing opens with
                  ⟨inner, suffix, goesOn⟩ | ⟨rfl, last, ends⟩
                · have settles := settles_ofOpened
                    (fun rest within => below rest (within.trans suffix)) line.number
                  obtain rfl := Option.some.inj (opens.symm.trans (goesOn ['}']))
                  simp only [goesOn] at unclosed declared ⊢
                  exact settles unclosed declared more
                · rw [opens] at declared
                  simp only [ends more]
                  exact ofOpened_append_tail last declared (trimEnd more)

/-- Text that is put behind a source without a line feed goes to the last line. -/
theorem exists_ofSource_append (source : List Char) :
    ∃ above number raw, (∀ line ∈ above, trim line.text ≠ []) ∧
      ∀ ending, '\n' ∉ ending →
        ofSource (source ++ ending) = ofLines (above ++ Line.numbered number [raw ++ ending]) := by
  obtain ⟨init, raw, pieces, -⟩ := exists_splitOn_eq_concat source
  have flat : ∀ line ∈ init ++ [raw], '\n' ∉ line := fun line membership =>
    notMem_of_mem_splitOn (pieces ▸ membership)
  obtain ⟨flatInit, flatLast⟩ := List.forall_mem_append.mp flat
  refine ⟨Line.numbered 1 init, 1 + init.length, raw, ?_, ?_⟩
  · intro line membership
    rw [Line.text, trim_trim]
    exact Line.text_ne_nil_of_mem_numbered membership
  · intro ending flatEnding
    have whole : source ++ ending = unlines (init ++ [raw ++ ending]) := by
      conv_lhs => rw [← unlines_splitOn source, pieces, unlines_append init (List.cons_ne_nil _ _)]
      rw [unlines_append init (List.cons_ne_nil _ _)]
      simp [unlines]
    have flatWhole : ∀ line ∈ init ++ [raw ++ ending], '\n' ∉ line := by
      refine List.forall_mem_append.mpr ⟨flatInit, List.forall_mem_singleton.mpr ?_⟩
      have flatRaw := flatLast raw List.mem_cons_self
      simp [flatRaw, flatEnding]
    rw [whole, ofSource_unlines flatWhole, Line.numbered_append]

theorem isUnclosed_of_fault {catalog : Catalog} {block : Block} {name : String} {line : Nat}
    (fault : .fault (.unterminatedFunction name line) ∈ block.items catalog) :
    block.isUnclosed = true := by
  have noHead : ∀ number head,
      Item.fault (.unterminatedFunction name line) ∉ Item.ofHead catalog number head := by
    intro number head inHead
    rcases List.mem_append.mp inHead with value | tag
    · obtain ⟨other, -, same⟩ := List.mem_map.mp value
      simp at same
    · rw [List.mem_singleton] at tag
      split at tag <;> simp at tag
  cases block with
  | function number found closed =>
      cases closed with
      | false => rfl
      | true => simp [items, Item.ofFunction] at fault
  | piece number found =>
      cases found with
      | head inside => exact absurd fault (noHead number _)
      | _ => simp [items, Item.ofPiece] at fault
  | openClosing number tag =>
      rw [items, List.mem_singleton, Item.ofOpenClosing] at fault
      split at fault <;> simp at fault
  | head number head => exact absurd fault (noHead number head)
  | unfinished number text =>
      rw [items, Item.ofUnfinished] at fault
      split at fault
      · exact absurd fault (noHead number _)
      · exact absurd ((List.mem_cons.mp fault).resolve_left (by simp)) (noHead number _)
  | _ => simp [items] at fault

theorem isComplete_of_mayDeclare {block : Block} (declared : block.mayDeclare = true) :
    block.isComplete = true := by
  cases block with
  | function number function closed => exact declared
  | unfinished number text => exact absurd declared Bool.false_ne_true
  | _ => rfl

end Block

end ScreenCompiler
