import Mathlib.Data.List.Perm.Basic
import ScreenCompiler.Catalog.Standard
import ScreenCompiler.Component.Check
import ScreenCompiler.Component.Module
import ScreenCompiler.Proofs.Catalog.Required

/-!
# What a component module imports

The import lines of a module bind the names that every module needs, the components
of the tags, and the names that the author imports.  A plain name is left out of a line
only where another line binds it.
-/

namespace ScreenCompiler

open Text

namespace Import

/-- An entry without an alias binds its own name. -/
theorem localName_of_plain {entry : String} (plain : afterAs? entry.toList = none) :
    localName entry = entry := by
  rw [localName, plain]

/-- What is left of an import binds the names that were not bound. -/
theorem boundNames_unbound? (bound : List String) (statement : Import) :
    (statement.unbound? bound).toList.flatMap boundNames =
      statement.boundNames.filter fun name => !bound.contains name := by
  have single : ∀ name : String, ∀ other : Import, other.boundNames = [name] →
      (if [name].any bound.contains then none else some other).toList.flatMap boundNames =
        [name].filter fun name => !bound.contains name := by
    intro name other isName
    by_cases taken : name ∈ bound <;> simp [taken, isName]
  cases statement with
  | default name source => exact single name _ rfl
  | whole name source => exact single name _ rfl
  | named names source =>
      rw [boundNames, List.filter_map, unbound?]
      split
      · rename_i nothing
        rw [Function.comp_def, nothing]
        rfl
      · rename_i first others left
        rw [Function.comp_def, left]
        simp [boundNames]

end Import

/-- The names that a catalog imports have no alias, and a tag with a package stands for what it
imports. -/
structure Catalog.HasPlainNames (catalog : Catalog) : Prop where
  core : ∀ name ∈ catalog.coreComponents, Import.afterAs? name.toList = none
  package : ∀ listed ∈ catalog.packageComponents,
    Import.afterAs? listed.2.imported.toList = none
  target : ∀ listed ∈ catalog.packageComponents, catalog.target listed.1 = listed.2.imported

theorem Catalog.hasPlainNames_standard : Catalog.standard.HasPlainNames where
  core := by decide
  package := by decide
  target := by decide

/-- The lines of a package bind what the author does not. -/
theorem Document.boundNames_packageLines {bound : List String} {entry : PackageImport}
    (plain : ∀ name ∈ entry.names, Import.afterAs? name.toList = none) :
    (packageLines bound entry).flatMap ImportLine.boundNames =
      entry.names.filter fun name => !bound.contains name := by
  have plainLeft : ∀ name ∈ entry.names.filter (fun name => !bound.contains name),
      Import.localName name = name := fun name membership =>
    Import.localName_of_plain (plain name (List.mem_of_mem_filter membership))
  generalize isLeft : entry.names.filter (fun name => !bound.contains name) = left at plainLeft
  unfold packageLines
  rw [isLeft]
  split
  · rfl
  · simp [ImportLine.boundNames, Import.boundNames, List.map_congr_left plainLeft]
  · simp [ImportLine.boundNames, Import.boundNames, List.flatMap_map]

/-- Adding names to a list appends those that are new. -/
theorem foldl_addName (names entries : List String) :
    ∃ added, entries.foldl addName names = names ++ added ∧ added.Sublist entries ∧
      (∀ entry ∈ added, entry ∉ names) ∧ ∀ entry ∈ entries, entry ∈ names ++ added := by
  induction entries generalizing names with
  | nil => exact ⟨[], by simp, .slnil, by simp, by simp⟩
  | cons entry entries inductionHypothesis =>
      rw [List.foldl_cons, addName]
      split
      · rename_i isThere
        obtain ⟨added, whole, fromEntries, isNew, all⟩ := inductionHypothesis names
        refine ⟨added, whole, fromEntries.cons entry, isNew, ?_⟩
        exact List.forall_mem_cons.mpr
          ⟨List.mem_append_left _ (List.contains_iff_mem.mp isThere), all⟩
      · rename_i isMissing
        obtain ⟨added, whole, fromEntries, isNew, all⟩ := inductionHypothesis (names ++ [entry])
        rw [List.append_assoc, List.singleton_append] at whole all
        refine ⟨entry :: added, whole, fromEntries.cons_cons entry, ?_, ?_⟩
        · refine List.forall_mem_cons.mpr ⟨mt List.contains_iff_mem.mpr isMissing, ?_⟩
          intro other membership inNames
          exact isNew other membership (List.mem_append_left _ inNames)
        · exact List.forall_mem_cons.mpr ⟨by simp, all⟩

theorem mem_foldl_addName {name : String} {names entries : List String} :
    name ∈ entries.foldl addName names ↔ name ∈ names ∨ name ∈ entries := by
  obtain ⟨added, whole, fromEntries, -, all⟩ := foldl_addName names entries
  rw [whole]
  constructor
  · intro membership
    exact (List.mem_append.mp membership).imp_right (fromEntries.subset ·)
  · rintro (before | isEntry)
    · exact List.mem_append_left _ before
    · exact all name isEntry

/-- The names that the import lines of a module bind. -/
def ComponentModule.importedNames (component : ComponentModule) : List String :=
  component.imports.flatMap ImportLine.boundNames

/-- A text starts with the import lines of a module, goes on with its component, and ends with its
stylesheet. -/
def ComponentModule.IsWrittenIn (component : ComponentModule) (text : String) : Prop :=
  ∃ constants, text = String.intercalate "\n" (component.imports.map ImportLine.text) ++ "\n\n" ++
    ("export default function " ++ component.name ++ "() \x7b\n" ++ constants ++
      "\n  return (\n" ++ component.markup ++ "  );\n\x7d\n\n") ++
    component.stylesheet ++ "\n"

theorem ComponentModule.isWrittenIn_text (component : ComponentModule) :
    component.IsWrittenIn component.text := by
  refine ⟨"  const navigation = useNavigation();\n" ++
    String.join (component.states.map fun state => state.declarationLine ++ "\n") ++
    String.join (component.functions.map fun function => "\n" ++ function.code ++ "\n"), ?_⟩
  unfold text header importText
  simp only [String.append_assoc]

namespace Document

variable {document : Document} {catalog : Catalog}

/-- The local names of the author's imports. -/
def authorNames (document : Document) : List String :=
  document.imports.flatMap Import.boundNames

/-- The entries that join the first line of a module. -/
def mergedEntries (document : Document) (source : String) : List String :=
  document.imports.flatMap (Import.namesFrom source)

/-- The local names of the author's imports that keep lines of their own. -/
def otherNames (document : Document) : List String :=
  (document.imports.filter fun statement =>
    !statement.isNamedFrom "react" && !statement.isNamedFrom "react-native").flatMap
      Import.boundNames

/-- What is imported from the component library before the author's entries join. -/
def suppliedLibraryNames (catalog : Catalog) (document : Document) : List String :=
  document.coreComponents catalog ++ ["StyleSheet"] ++
    if document.mentionsLinking then ["Linking"] else []

/-- The components that the tags need from packages. -/
def packageNames (catalog : Catalog) (document : Document) : List String :=
  (document.required catalog).packages.flatMap PackageImport.names

/-- Every name of the author is one that joins a first line or one with a line of its own. -/
theorem authorNames_perm (document : Document) :
    document.authorNames.Perm
      ((document.mergedEntries "react").map Import.localName ++
        ((document.mergedEntries "react-native").map Import.localName ++
          document.otherNames)) := by
  rw [authorNames, mergedEntries, mergedEntries, otherNames]
  induction document.imports with
  | nil => exact .nil
  | cons statement statements inductionHypothesis =>
      rw [List.perm_iff_count] at inductionHypothesis ⊢
      intro name
      have later := inductionHypothesis name
      simp only [List.count_append] at later
      cases statement with
      | default other source =>
          simp [Import.namesFrom, Import.isNamedFrom, List.count_append, later]
          omega
      | whole other source =>
          simp [Import.namesFrom, Import.isNamedFrom, List.count_append, later]
          omega
      | named names source =>
          by_cases framework : source = "react"
          · simp [Import.namesFrom, Import.isNamedFrom, Import.boundNames, framework,
              List.count_append, later]
          · by_cases library : source = "react-native"
            · simp [Import.namesFrom, Import.isNamedFrom, Import.boundNames, library,
                List.count_append, later]
              omega
            · simp [Import.namesFrom, Import.isNamedFrom, Import.boundNames, framework, library,
                List.count_append, later]
              omega

theorem otherNames_left (catalog : Catalog) (document : Document) :
    (document.ownImports catalog).flatMap Import.boundNames =
      document.otherNames.filter fun name => !(document.baseline catalog).contains name := by
  have each : ∀ statements : List Import,
      (statements.filterMap (Import.unbound? (document.baseline catalog))).flatMap
        Import.boundNames = (statements.flatMap Import.boundNames).filter
          fun name => !(document.baseline catalog).contains name := by
    intro statements
    induction statements with
    | nil => rfl
    | cons statement statements inductionHypothesis =>
        rw [List.flatMap_cons, List.filter_append, ← inductionHypothesis,
          ← Import.boundNames_unbound?]
        cases left : statement.unbound? (document.baseline catalog) <;> simp [left]
  exact each _

theorem plain_of_mem_coreComponents (plain : catalog.HasPlainNames) :
    ∀ name ∈ document.coreComponents catalog, Import.afterAs? name.toList = none := by
  have core : ∀ name ∈ (document.required catalog).core,
      Import.afterAs? name.toList = none := fun name membership =>
    plain.core name ((catalog.areFrom_requiredImports _).isCore name membership)
  intro name membership
  rw [coreComponents] at membership
  split at membership
  · rcases mem_insertName.mp membership with rfl | inCore
    · decide
    · exact core name inCore
  · exact core name membership

theorem plain_of_mem_suppliedLibraryNames (plain : catalog.HasPlainNames) :
    ∀ name ∈ document.suppliedLibraryNames catalog, Import.afterAs? name.toList = none := by
  have styleSheet : Import.afterAs? "StyleSheet".toList = none := by decide
  have linking : Import.afterAs? "Linking".toList = none := by decide
  intro name membership
  rw [suppliedLibraryNames, List.mem_append, List.mem_append] at membership
  rcases membership with (inCore | isStyleSheet) | isLinking
  · exact plain_of_mem_coreComponents plain name inCore
  · rw [List.mem_singleton.mp isStyleSheet]
    exact styleSheet
  · split at isLinking
    · rw [List.mem_singleton.mp isLinking]
      exact linking
    · exact absurd isLinking List.not_mem_nil

theorem plain_of_mem_names (plain : catalog.HasPlainNames) :
    ∀ entry ∈ (document.required catalog).packages, ∀ name ∈ entry.names,
      Import.afterAs? name.toList = none := by
  intro entry membership name inNames
  obtain ⟨listed, isListed, -, rfl⟩ :=
    (catalog.areFrom_requiredImports _).packages.known entry membership name inNames
  exact plain.package listed isListed

/-- The names of a module, line by line. -/
theorem importedNames_eq (plain : catalog.HasPlainNames) (routes : List Route) (name : String)
    (document : Document) :
    (document.component catalog routes name).importedNames =
      "React" :: (document.frameworkNames.map Import.localName ++
        ((document.libraryNames catalog).map Import.localName ++
          ("useNavigation" ::
            ((document.packageNames catalog).filter
                (fun name => !document.authorNames.contains name) ++
              document.otherNames.filter
                fun name => !(document.baseline catalog).contains name)))) := by
  have packages : ((document.required catalog).packages.flatMap
      (packageLines document.authorNames)).flatMap ImportLine.boundNames =
        (document.packageNames catalog).filter
          fun name => !document.authorNames.contains name := by
    rw [packageNames, List.filter_flatMap, List.flatMap_assoc]
    apply List.flatMap_congr
    intro entry membership
    exact boundNames_packageLines (plain_of_mem_names plain entry membership)
  have own : ((document.ownImports catalog).map ImportLine.single).flatMap
      ImportLine.boundNames = (document.ownImports catalog).flatMap Import.boundNames := by
    rw [List.flatMap_map]
    rfl
  have navigation : Import.localName "useNavigation" = "useNavigation" := by decide
  rw [ComponentModule.importedNames, component, importLines, List.flatMap_append,
    List.flatMap_append, own, otherNames_left]
  rw [authorNames] at packages ⊢
  rw [packages]
  simp [ImportLine.boundNames, Import.boundNames, navigation]

/-- The places where the linking module can be used. -/
inductive UsesLinking (document : Document) : Prop where
  | body {function : Function} :
      function ∈ document.functions → linkingMark <:+: function.body.toList →
      UsesLinking document
  | text {run : String} :
      run ∈ Node.textsOf document.nodes → linkingMark <:+: run.toList →
      UsesLinking document
  | prop {element : Element} {name code : String} {value : PropValue} :
      element ∈ Node.elementsOf document.nodes → (name, value) ∈ element.props.entries →
      value = .string code ∨ value = .expression code → linkingMark <:+: code.toList →
      UsesLinking document

theorem valueMentionsLinking_iff {value : PropValue} :
    valueMentionsLinking value = true ↔ ∃ code : String,
      (value = .string code ∨ value = .expression code) ∧ linkingMark <:+: code.toList := by
  cases value <;> simp [valueMentionsLinking, occursIn_iff]

theorem mentionsLinking_iff : document.mentionsLinking = true ↔ document.UsesLinking := by
  simp only [mentionsLinking, Bool.or_eq_true, List.any_eq_true, occursIn_iff,
    valueMentionsLinking_iff]
  constructor
  · rintro ((⟨function, isFunction, uses⟩ | ⟨run, isText, uses⟩) |
      ⟨element, isElement, ⟨name, value⟩, isProp, code, isValue, uses⟩)
    · exact .body isFunction uses
    · exact .text isText uses
    · exact .prop isElement isProp isValue uses
  · rintro (⟨isFunction, uses⟩ | ⟨isText, uses⟩ | ⟨isElement, isProp, isValue, uses⟩)
    · exact .inl (.inl ⟨_, isFunction, uses⟩)
    · exact .inl (.inr ⟨_, isText, uses⟩)
    · exact .inr ⟨_, isElement, _, isProp, _, isValue, uses⟩

section Bound

variable (plain : catalog.HasPlainNames) (routes : List Route) (component : String)
include plain

/-- A plain name of the first lines is bound by them. -/
theorem mem_importedNames_of_baseline {name : String} (first : name ∈ document.baseline catalog)
    (isPlain : Import.afterAs? name.toList = none) :
    name ∈ (document.component catalog routes component).importedNames := by
  have asEntry : ∀ entries : List String, name ∈ entries →
      name ∈ entries.map Import.localName := by
    intro entries membership
    rw [← Import.localName_of_plain isPlain]
    exact List.mem_map_of_mem membership
  rw [importedNames_eq plain]
  rw [baseline, List.mem_append, List.mem_append] at first
  rcases first with (isFixed | isFramework) | isLibrary
  · have fixed : name = "React" ∨ name = "useNavigation" := by simpa using isFixed
    rcases fixed with rfl | rfl <;> simp
  · simp [asEntry _ isFramework]
  · simp [asEntry _ isLibrary]

theorem mem_importedNames_of_supplied {name : String}
    (supplied : name ∈ document.suppliedLibraryNames catalog) :
    name ∈ (document.component catalog routes component).importedNames := by
  apply mem_importedNames_of_baseline plain
  · exact List.mem_append_right _ (mem_foldl_addName.mpr (.inl supplied))
  · exact plain_of_mem_suppliedLibraryNames plain name supplied

/-- A plain name of the author is bound, at the latest by a line of its own. -/
theorem mem_importedNames_of_author {name : String} (authored : name ∈ document.authorNames)
    (isPlain : Import.afterAs? name.toList = none) :
    name ∈ (document.component catalog routes component).importedNames := by
  have merged := document.authorNames_perm.mem_iff.mp authored
  rw [List.mem_append, List.mem_append] at merged
  rcases merged with isFramework | isLibrary | isOther
  · obtain ⟨entry, isEntry, rfl⟩ := List.mem_map.mp isFramework
    have inLine : entry ∈ document.frameworkNames := mem_foldl_addName.mpr (.inr isEntry)
    rw [importedNames_eq plain]
    simp [List.mem_map_of_mem (f := Import.localName) inLine]
  · obtain ⟨entry, isEntry, rfl⟩ := List.mem_map.mp isLibrary
    have inLine : entry ∈ document.libraryNames catalog := mem_foldl_addName.mpr (.inr isEntry)
    rw [importedNames_eq plain]
    simp [List.mem_map_of_mem (f := Import.localName) inLine]
  · by_cases first : name ∈ document.baseline catalog
    · exact mem_importedNames_of_baseline plain routes component first isPlain
    · rw [importedNames_eq plain]
      simp [isOther, first]

/-- A component from a package is bound by the line of its package or by the author. -/
theorem mem_importedNames_of_package {name : String}
    (required : name ∈ document.packageNames catalog) :
    name ∈ (document.component catalog routes component).importedNames := by
  by_cases authored : name ∈ document.authorNames
  · obtain ⟨entry, isEntry, inNames⟩ := List.mem_flatMap.mp required
    exact mem_importedNames_of_author plain routes component authored
      (plain_of_mem_names plain entry isEntry name inNames)
  · rw [importedNames_eq plain]
    simp [required, authored]

theorem mem_importedNames_of_element {element : Element}
    (isElement : element ∈ Node.elementsOf document.nodes)
    (known : element.tag ∉ document.customComponents catalog) :
    catalog.target element.tag ∈ (document.component catalog routes component).importedNames := by
  have covers : (document.required catalog).Cover catalog element.tag :=
    catalog.cover_requiredImports (List.mem_map_of_mem isElement)
  rcases covers with isCustom | isCore | ⟨listed, found, inPackages⟩
  · exact absurd isCustom known
  · apply mem_importedNames_of_supplied plain
    refine List.mem_append_left _ (List.mem_append_left _ ?_)
    rw [coreComponents]
    split
    · exact mem_insertName.mpr (.inr isCore)
    · exact isCore
  · obtain ⟨before, after, split, -⟩ := List.lookup_eq_some_iff.mp found
    have isListed : (element.tag, listed) ∈ catalog.packageComponents := by simp [split]
    rw [plain.target _ isListed]
    exact mem_importedNames_of_package plain routes component inPackages

end Bound

/-- A module imports all it uses, in the lines that its text starts with, and no plain name of the
author is lost: the author's names, the components of all tags but custom ones, the component of
wrapped texts, what every module uses, and the linking module where it is used. -/
theorem importedNames_complete (document : Document) (routes : List Route) (component : String) :
    (document.component .standard routes component).IsWrittenIn
      (document.generate .standard routes component) ∧
    (∀ name ∈ document.authorNames, Import.afterAs? name.toList = none →
      name ∈ (document.component .standard routes component).importedNames) ∧
    (∀ element ∈ Node.elementsOf document.nodes,
      element.tag ∉ document.customComponents .standard →
        Catalog.standard.target element.tag ∈
          (document.component .standard routes component).importedNames) ∧
    (∀ element ∈ Node.elementsOf document.nodes, Catalog.standard.isButton element.tag = true →
      ∀ child ∈ element.children, child.isText = true →
        "Text" ∈ (document.component .standard routes component).importedNames) ∧
    (∀ name ∈ ["React", "useState", "StyleSheet", "useNavigation"],
      name ∈ (document.component .standard routes component).importedNames) ∧
    (document.UsesLinking →
      "Linking" ∈ (document.component .standard routes component).importedNames) := by
  have plain := Catalog.hasPlainNames_standard
  refine ⟨ComponentModule.isWrittenIn_text _, ?author, ?tags, ?wrapped, ?fixed, ?linking⟩
  case author =>
    intro name authored isPlain
    exact mem_importedNames_of_author plain routes component authored isPlain
  case tags =>
    intro element isElement known
    exact mem_importedNames_of_element plain routes component isElement known
  case wrapped =>
    intro element isElement isButton child isChild isText
    have wraps : document.wrapsButtonText .standard = true := by
      refine List.any_eq_true.mpr ⟨element, isElement, ?_⟩
      rw [Bool.and_eq_true]
      exact ⟨isButton, List.any_eq_true.mpr ⟨child, isChild, isText⟩⟩
    apply mem_importedNames_of_supplied plain
    refine List.mem_append_left _ (List.mem_append_left _ ?_)
    rw [coreComponents, if_pos wraps]
    exact mem_insertName.mpr (.inl rfl)
  case fixed =>
    have framework : "useState" ∈ document.frameworkNames :=
      mem_foldl_addName.mpr (.inl (by simp))
    have library : "StyleSheet" ∈ document.libraryNames .standard :=
      mem_foldl_addName.mpr (.inl (by simp))
    have first : ∀ name ∈ ["React", "useState", "StyleSheet", "useNavigation"],
        name ∈ document.baseline .standard := by
      simp [baseline, framework, library]
    have isPlain : ∀ name ∈ ["React", "useState", "StyleSheet", "useNavigation"],
        Import.afterAs? name.toList = none := by
      decide
    intro name membership
    exact mem_importedNames_of_baseline plain routes component (first name membership)
      (isPlain name membership)
  case linking =>
    intro uses
    apply mem_importedNames_of_supplied plain
    refine List.mem_append_right _ ?_
    rw [if_pos (mentionsLinking_iff.mpr uses)]
    exact List.mem_singleton_self _

/-- A screen with an import, a text in a button that mentions the linking module, and a component
from a package. -/
def importingScreen : Document :=
  parse .standard
    "import \x7b price as cost \x7d from './prices'\n<Button>Linking.buy</Button>\n<Card/>".toList

theorem importedNames_complete_importingScreen :
    "cost" ∈ (importingScreen.component .standard [] "Shop").importedNames ∧
      "TouchableOpacity" ∈ (importingScreen.component .standard [] "Shop").importedNames ∧
      "Card" ∈ (importingScreen.component .standard [] "Shop").importedNames ∧
      "Text" ∈ (importingScreen.component .standard [] "Shop").importedNames ∧
      "Linking" ∈ (importingScreen.component .standard [] "Shop").importedNames := by
  have authored : "cost" ∈ importingScreen.authorNames := by decide +kernel
  have tags : Node.tagsOf importingScreen.nodes = ["Button", "Card"] := by decide +kernel
  have custom : importingScreen.customComponents .standard = [] := by decide +kernel
  have wraps : importingScreen.wrapsButtonText .standard = true := by decide +kernel
  have links : importingScreen.mentionsLinking = true := by decide +kernel
  obtain ⟨-, author, elements, wrapped, -, linking⟩ :=
    importedNames_complete importingScreen [] "Shop"
  have targets : ∀ tag ∈ Node.tagsOf importingScreen.nodes, Catalog.standard.target tag ∈
      (importingScreen.component .standard [] "Shop").importedNames := by
    intro tag membership
    obtain ⟨element, isElement, rfl⟩ := List.mem_map.mp membership
    exact elements element isElement (by simp [custom])
  rw [tags] at targets
  refine ⟨author "cost" authored (by decide), targets "Button" (by simp), targets "Card" (by simp),
    ?_, linking (mentionsLinking_iff.mp links)⟩
  obtain ⟨element, isElement, wrapsText⟩ := List.any_eq_true.mp wraps
  obtain ⟨isButton, someText⟩ := (Bool.and_eq_true _ _).mp wrapsText
  obtain ⟨child, isChild, isText⟩ := List.any_eq_true.mp someText
  exact wrapped element isElement isButton child isChild isText

/-- A screen that imports under an alias with a second alias behind it. -/
def doublyAliasedScreen : Document :=
  parse .standard
    "import \x7b A as B \x7d from 'react'\nimport \x7b x as A as B \x7d from 'foo'\n<View/>".toList

/-- An alias with blanks can be mistaken for an entry of the first line, and then it is lost. -/
theorem importedNames_lose_doubledAlias :
    "A as B" ∈ doublyAliasedScreen.authorNames ∧
      "A as B" ∉ (doublyAliasedScreen.component .standard [] "Home").importedNames := by
  decide +kernel

end Document

end ScreenCompiler
