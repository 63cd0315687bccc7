import Mathlib.Data.List.Induction
import ScreenCompiler.Proofs.Document.Nodes
import ScreenCompiler.Proofs.Document.Plain
import ScreenCompiler.Proofs.Markup.Attributes

/-!
# Elements of parsed documents

Nothing but the reading of an attribute text makes the props of an element, so what
holds of all readings holds of all elements of a document.
-/

namespace ScreenCompiler

open Text

/-- The props of an item that is an element. -/
def Item.props? : Item → Option Props
  | .leaf _ props _ => some props
  | .opening _ props _ => some props
  | _ => none

/-- Props that have been read from an attribute text. -/
def Props.IsRead (catalog : Catalog) (props : Props) : Prop :=
  ∃ text, props = (ScannedProps.read catalog text).props

/-- Whether a value may stand under a name: navigation calls and bindings have names of their
own. -/
def PropValue.FitsName (name : String) : PropValue → Prop
  | .navigation _ => name = "onPress"
  | .state bound => name = "bind" ∧ bound ≠ ""
  | _ => True

theorem PropValue.fitsName_literalOr {name : String} {text : List Char} {other : PropValue}
    (fits : other.FitsName name) : (literalOr text other).FitsName name := by
  unfold literalOr
  split
  · trivial
  · split
    · trivial
    · split
      · trivial
      · exact fits

theorem PropValue.fitsName_ofQuoted (catalog : Catalog) (name : String) (text : List Char) :
    (ofQuoted catalog name text).FitsName name := by
  have literal : (ofLiteral text).FitsName name := fitsName_literalOr trivial
  unfold ofQuoted
  split
  · rename_i isPress
    split
    · exact isPress
    · exact literal
  · split
    · rename_i isBinding
      split
      · exact literal
      · rename_i solid
        exact ⟨isBinding, fun empty => solid (by simpa using String.ofList_inj.mp empty)⟩
    · split
      · trivial
      · split
        · trivial
        · exact literal

theorem Attribute.fitsName_toValue (catalog : Catalog) (item : Attribute) :
    (item.toValue catalog).FitsName item.name := by
  unfold toValue
  split
  · trivial
  · trivial
  · exact PropValue.fitsName_literalOr trivial
  · exact PropValue.fitsName_ofQuoted catalog item.name _
  · exact PropValue.fitsName_literalOr trivial

/-- Props that hold every name once and every value under a name that it fits. -/
structure Props.IsWellFormed (props : Props) : Prop where
  distinct : props.names.Nodup
  fits : ∀ entry ∈ props.entries, entry.2.FitsName entry.1

namespace Props.IsWellFormed

theorem empty : Props.empty.IsWellFormed where
  distinct := List.nodup_nil
  fits _ membership := absurd membership List.not_mem_nil

theorem insert {props : Props} (wellFormed : props.IsWellFormed) {name : String}
    {value : PropValue} (fits : value.FitsName name) : (props.insert name value).IsWellFormed where
  distinct := nodup_names_put wellFormed.distinct
  fits := by
    rintro ⟨key, held⟩ membership
    rcases mem_put membership with earlier | ⟨rfl, rfl⟩
    · exact wellFormed.fits _ earlier
    · exact fits

end Props.IsWellFormed

theorem ScannedProps.isWellFormed_ofAttributes (catalog : Catalog) (attributes : List Attribute) :
    (ofAttributes catalog attributes).props.IsWellFormed := by
  induction attributes using List.reverseRecOn with
  | nil => exact .empty
  | append_singleton attributes last inductionHypothesis =>
      simp only [ofAttributes, List.foldl_append, List.foldl_cons, List.foldl_nil]
      exact inductionHypothesis.insert (last.fitsName_toValue catalog)

theorem Props.isWellFormed_of_isRead {catalog : Catalog} {props : Props}
    (read : props.IsRead catalog) : props.IsWellFormed := by
  obtain ⟨text, rfl⟩ := read
  exact ScannedProps.isWellFormed_ofAttributes catalog _

/-- Only a press handler leads to a screen. -/
theorem Props.key_of_navigation {catalog : Catalog} {props : Props} {key path : String}
    (read : props.IsRead catalog) (calls : (key, .navigation path) ∈ props.entries) :
    key = "onPress" :=
  (isWellFormed_of_isRead read).fits _ calls

namespace Item

variable {catalog : Catalog}

theorem isRead_ofHead {number : Nat} {head : Head} {item : Item} {props : Props}
    (membership : item ∈ ofHead catalog number head) (found : item.props? = some props) :
    props.IsRead catalog := by
  simp only [ofHead, List.mem_append, List.mem_map, List.mem_singleton] at membership
  refine ⟨head.attributes, ?_⟩
  rcases membership with ⟨name, -, rfl⟩ | rfl
  · exact absurd found (by simp [props?])
  · split at found
    · exact (Option.some.inj found).symm
    · exact (Option.some.inj found).symm

theorem isRead_of_mem_items {block : Block} {item : Item} {props : Props}
    (membership : item ∈ block.items catalog) (found : item.props? = some props) :
    props.IsRead catalog := by
  cases block with
  | function number function closed =>
      rw [Block.items, ofFunction] at membership
      rcases List.mem_append.mp membership with fault | declared
      · split at fault
        · exact absurd fault List.not_mem_nil
        · obtain rfl := List.mem_singleton.mp fault
          exact absurd found (by simp [props?])
      · obtain rfl := List.mem_singleton.mp declared
        exact absurd found (by simp [props?])
  | piece number piece =>
      cases piece with
      | head inside => exact isRead_ofHead membership found
      | text run =>
          obtain rfl := List.mem_singleton.mp membership
          exact absurd found (by simp [props?])
      | closing inside =>
          obtain rfl := List.mem_singleton.mp membership
          exact absurd found (by simp [props?])
  | openClosing number tag =>
      obtain rfl := List.mem_singleton.mp membership
      rw [ofOpenClosing] at found
      split at found <;> exact absurd found (by simp [props?])
  | head number head => exact isRead_ofHead membership found
  | unfinished number text =>
      rw [Block.items, ofUnfinished] at membership
      split at membership
      · exact isRead_ofHead membership found
      · rcases List.mem_cons.mp membership with rfl | inHead
        · exact absurd found (by simp [props?])
        · exact isRead_ofHead inHead found
  | _ =>
      obtain rfl := List.mem_singleton.mp membership
      exact absurd found (by simp [props?])

theorem isRead_of_mem_ofSource {source : List Char} {item : Item} {props : Props}
    (membership : item ∈ ofSource catalog source) (found : item.props? = some props) :
    props.IsRead catalog := by
  obtain ⟨block, -, inside⟩ := List.mem_flatMap.mp membership
  exact isRead_of_mem_items inside found

end Item

namespace Document

/-- The props of every element of a document have been read from an attribute text. -/
theorem isRead_of_mem_elements {catalog : Catalog} {source : List Char} {element : Element}
    (membership : element ∈ Node.elementsOf (parse catalog source).nodes) :
    element.props.IsRead catalog := by
  have nodes : (parse catalog source).nodes =
      (Forest.ofItems (Item.ofSource catalog (Stylesheet.cut source).remaining)).nodes :=
    nodes_ofForest _
  rw [nodes] at membership
  rcases (Forest.stemsFrom_ofItems _).elements element membership with leaf | opening
  · exact Item.isRead_of_mem_ofSource leaf rfl
  · exact Item.isRead_of_mem_ofSource opening rfl

end Document

end ScreenCompiler
