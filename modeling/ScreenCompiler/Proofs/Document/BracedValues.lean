import ScreenCompiler.Proofs.Document.RoundTrip
import ScreenCompiler.Proofs.Markup.BracedValues

/-!
# Elements with a value in braces

A tag with a value in braces ends behind it whenever the braces outside literals are
balanced.  It becomes an element with that value when the other braces are, too.
-/

namespace ScreenCompiler

open Text

namespace Markup

/-- An attribute with a value in braces, as it is written behind a tag. -/
def bracedAttribute (name code : List Char) : List Char :=
  ' ' :: (name ++ '=' :: '{' :: (code ++ ['}']))

/-- The line of an element that closes itself. -/
def selfClosing (tag : TagName) (attributes : List Char) : List Char :=
  '<' :: (tag.text ++ attributes ++ ['/', '>'])

/-- A tag that closes itself is read with the attributes between its name and its slash. -/
theorem parse_selfClosing (catalog : Catalog) (tag : TagName) {attributes : List Char}
    (quiet : Head.Quiet attributes) (noFeed : '\n' ∉ attributes)
    (apart : ∀ c, attributes.head? = some c → Head.isTagChar c = false)
    (plain : Stylesheet.find? (selfClosing tag attributes) = none) :
    Document.parse catalog (selfClosing tag attributes) =
      Document.ofNodes
        [.element (String.ofList tag.text) (ScannedProps.read catalog attributes).props [] 1]
        ((ScannedProps.read catalog attributes).unterminated.map (.unterminatedValue · 1)) := by
  have isLine : IsLinePiece (.head (tag.text ++ (attributes ++ ['/']))) :=
    isLinePiece_head tag (quiet.append quiet_slash) (by simp [noFeed])
  rw [← List.append_assoc] at isLine
  have source : unlines (([.head (tag.text ++ attributes ++ ['/'])] : List Piece).mapIdx
      fun _ piece => [] ++ piece.written) = selfClosing tag attributes := by
    simp [unlines, selfClosing, Piece.written]
  have items : items catalog 1 [.head (tag.text ++ attributes ++ ['/'])] =
      ((ScannedProps.read catalog attributes).unterminated.map
        (Diagnostic.unterminatedValue · 1)).map .fault ++
      [.leaf (String.ofList tag.text) (ScannedProps.read catalog attributes).props 1] := by
    have item : Item.ofPiece catalog 1 (.head (tag.text ++ attributes ++ ['/'])) =
        Item.ofHead catalog 1 ⟨tag.text, attributes, true⟩ := by
      rw [Item.ofPiece, ofInside_closed tag apart]
    rw [List.map_map]
    exact (List.append_nil _).trans item
  have leaf : Forest.Descent []
      [.leaf (String.ofList tag.text) (ScannedProps.read catalog attributes).props 1]
      (Forest.ofNode (.element (String.ofList tag.text)
        (ScannedProps.read catalog attributes).props [] 1) ++ Forest.empty) [] :=
    .alone rfl .done
  rw [← source] at plain ⊢
  rw [Document.parse_pieces catalog (List.forall_mem_singleton.mpr isLine) (fun _ => rfl) (by simp)
    plain, items, (leaf.faults _).eq_ofItems]
  simp [Forest.ofNode, Forest.empty]

theorem quiet_bracedAttribute {name code : List Char}
    (named : name.all Attribute.isNameChar = true) (balanced : IsBalancedCode code) :
    Head.Quiet (bracedAttribute name code) := by
  have shape : bracedAttribute name code = ' ' :: name ++ ['='] ++ ('{' :: code ++ ['}']) := by
    simp [bracedAttribute]
  rw [shape]
  exact (quiet_attributeName named).append (Head.quiet_braced balanced)

theorem feed_notMem_bracedAttribute {name code : List Char}
    (named : name.all Attribute.isNameChar = true) (noFeed : '\n' ∉ code) :
    '\n' ∉ bracedAttribute name code := by
  have noName : '\n' ∉ name := fun inName =>
    absurd (List.all_eq_true.mp named '\n' inName) (by decide)
  simp [bracedAttribute, noName, noFeed]

end Markup

namespace Document

open Markup

/-- The line is the element with just this value exactly when the braces in literals do not upset
the balance. -/
theorem parse_bracedAttribute_iff (catalog : Catalog) (tag : TagName) {name code : List Char}
    (nonempty : name ≠ []) (named : name.all Attribute.isNameChar = true) (noFeed : '\n' ∉ code)
    (balanced : IsBalancedCode code)
    (plain : Stylesheet.find? (selfClosing tag (bracedAttribute name code)) = none) :
    parse catalog (selfClosing tag (bracedAttribute name code)) =
        ofNodes
          [.element (String.ofList tag.text) ⟨[(String.ofList name, .ofBraced code)]⟩ [] 1] [] ↔
      HasBalancedBraces code := by
  have apart : ∀ c, (bracedAttribute name code).head? = some c → Head.isTagChar c = false := by
    intro c first
    obtain rfl : ' ' = c := Option.some.inj first
    decide
  rw [parse_selfClosing catalog tag (quiet_bracedAttribute named balanced)
    (feed_notMem_bracedAttribute named noFeed) apart plain,
    ← ScannedProps.read_braced_iff catalog nonempty named, bracedAttribute]
  constructor
  · intro same
    have props := (Node.element.inj (List.cons.inj (congrArg Document.nodes same)).1).2.1
    have faults := List.map_eq_nil_iff.mp (congrArg Document.diagnostics same)
    rw [← props, ← faults]
  · intro read
    rw [read]
    rfl

def shortTag : TagName :=
  ⟨'T', [], Eq.refl true, Eq.refl true⟩

/-- Braces in braces, an end of tag in quotes and in braces, and a pair of braces in a literal. -/
theorem parse_nested_bracedAttribute :
    IsBalancedCode "() => \x7b go(\"</T>\"); x('\x7b>\x7d', \x7ba: 1\x7d) \x7d".toList ∧
      Stylesheet.find? (selfClosing shortTag (bracedAttribute "on-x".toList
        "() => \x7b go(\"</T>\"); x('\x7b>\x7d', \x7ba: 1\x7d) \x7d".toList)) = none ∧
      parse .standard (selfClosing shortTag (bracedAttribute "on-x".toList
          "() => \x7b go(\"</T>\"); x('\x7b>\x7d', \x7ba: 1\x7d) \x7d".toList)) =
        ofNodes [.element "T" ⟨[("on-x", .ofBraced
          "() => \x7b go(\"</T>\"); x('\x7b>\x7d', \x7ba: 1\x7d) \x7d".toList)]⟩ [] 1] [] := by
  have balanced :
      IsBalancedCode "() => \x7b go(\"</T>\"); x('\x7b>\x7d', \x7ba: 1\x7d) \x7d".toList := by
    decide +kernel
  have plain : Stylesheet.find? (selfClosing shortTag (bracedAttribute "on-x".toList
      "() => \x7b go(\"</T>\"); x('\x7b>\x7d', \x7ba: 1\x7d) \x7d".toList)) = none := by
    decide +kernel
  exact ⟨balanced, plain, (parse_bracedAttribute_iff .standard shortTag (by decide) (by decide)
    (by decide) balanced plain).mpr (by decide +kernel)⟩

/-- A closing brace in a literal cuts the value, and a stylesheet in it is taken out. -/
theorem parse_brace_in_literal :
    IsBalancedCode "'\x7d'".toList ∧
      parse .standard (selfClosing shortTag (bracedAttribute ['n'] "'\x7d'".toList)) ≠
        ofNodes [.element "T" ⟨[("n", .ofBraced "'\x7d'".toList)]⟩ [] 1] [] ∧
      IsBalancedCode "const styles = StyleSheet.create()".toList ∧
      parse .standard (selfClosing shortTag (bracedAttribute ['n']
          "const styles = StyleSheet.create()".toList)) ≠
        ofNodes [.element "T" ⟨[("n", .ofBraced "const styles = StyleSheet.create()".toList)]⟩ [] 1]
          [] := by
  have props : ∀ {first second : Document}, first = second →
      (Node.elementsOf first.nodes).map Element.props =
        (Node.elementsOf second.nodes).map Element.props :=
    fun same => by rw [same]
  refine ⟨by decide, fun same => ?_, by decide, fun same => ?_⟩
  · exact absurd (props same) (by decide +kernel)
  · exact absurd (props same) (by decide +kernel)

end Document

end ScreenCompiler
