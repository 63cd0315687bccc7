import ScreenCompiler.Proofs.Component.Imports
import ScreenCompiler.Proofs.Route.Names
import ScreenCompiler.Route.Identity

/-!
# Top-level names of a component module

The names at the top level of a module come from the import lines, the component
itself and the stylesheet.  The author's names stay apart from those that a module
imports anyway because a name that is there already is not imported again.
-/

namespace ScreenCompiler

open Text

/-- The component name of a source path, as code. -/
def RouteIdentity.nameOf (path : List Char) : String :=
  String.ofList (RouteIdentity.ofRelative path).componentName

theorem RouteIdentity.nameOf_ne_styles (path : List Char) : nameOf path ≠ "styles" := by
  intro same
  have letters : RoutePath.componentName (ofRelative path).ungroupedPath = "styles".toList := by
    rw [← same, nameOf, String.toList_ofList]
    rfl
  have first : (RoutePath.componentName (ofRelative path).ungroupedPath).head? = some 's' := by
    rw [letters]
    rfl
  exact RoutePath.not_small_of_head?_componentName first (by decide)

/-- The names that a module binds by itself and that are no components. -/
def fixedNames : List String :=
  ["React", "useState", "useNavigation", "StyleSheet", "Linking"]

/-- The names of a catalog meet no fixed name, not the stylesheet, and not each other. -/
structure Catalog.KeepsNamesApart (catalog : Catalog) : Prop where
  core : ∀ name ∈ catalog.coreComponents, name ∉ "styles" :: fixedNames
  package : ∀ listed ∈ catalog.packageComponents, listed.2.imported ∉ "styles" :: fixedNames
  packageCore : ∀ listed ∈ catalog.packageComponents,
    listed.2.imported ∉ "Text" :: catalog.coreComponents
  onePackage : ∀ first ∈ catalog.packageComponents, ∀ second ∈ catalog.packageComponents,
    first.2.imported = second.2.imported → first.2.package = second.2.package

theorem Catalog.keepsNamesApart_standard : Catalog.standard.KeepsNamesApart where
  core := by decide
  package := by decide
  packageCore := by decide
  onePackage := by decide

/-- The names that are bound at the top level of a module: the imported ones, the component, and
the stylesheet unless the author imports its name. -/
def ComponentModule.topLevelNames (component : ComponentModule) (authored : List String) :
    List String :=
  component.importedNames ++
    component.name :: if "styles" ∈ authored then [] else ["styles"]

namespace Document

variable {document : Document} {catalog : Catalog}

/-- The names that the first lines bind without the author. -/
def suppliedNames (catalog : Catalog) (document : Document) : List String :=
  ["React", "useState", "useNavigation"] ++ document.suppliedLibraryNames catalog

/-- No entry of the author that joins a first line binds, in other words, a name that is bound
there anyway. -/
structure MergesPlainly (catalog : Catalog) (document : Document) : Prop where
  framework : ∀ entry ∈ document.mergedEntries "react",
    Import.localName entry ∈ document.suppliedNames catalog → entry = "useState"
  library : ∀ entry ∈ document.mergedEntries "react-native",
    Import.localName entry ∈ document.suppliedNames catalog →
      entry ∈ document.suppliedLibraryNames catalog

theorem mem_coreComponents {name : String} (membership : name ∈ document.coreComponents catalog) :
    name ∈ "Text" :: catalog.coreComponents := by
  have isCore := (catalog.areFrom_requiredImports (Node.tagsOf document.nodes)).isCore
  rw [coreComponents] at membership
  split at membership
  · exact List.mem_cons.mpr ((mem_insertName.mp membership).imp_right (isCore name))
  · exact List.mem_cons_of_mem _ (isCore name membership)

theorem nodup_coreComponents : (document.coreComponents catalog).Nodup := by
  have sorted := (catalog.areFrom_requiredImports (Node.tagsOf document.nodes)).core
  apply nodup_of_ascending
  rw [coreComponents]
  split
  · exact pairwise_insertName sorted
  · exact sorted

/-- The first lines bind fixed names and core components. -/
theorem suppliedNames_perm (catalog : Catalog) (document : Document) :
    ∃ fixed : List String, fixed.Sublist fixedNames ∧
      (document.suppliedNames catalog).Perm (fixed ++ document.coreComponents catalog) := by
  refine ⟨["React", "useState", "useNavigation"] ++ (["StyleSheet"] ++
    if document.mentionsLinking then ["Linking"] else []), ?_, ?_⟩
  · split <;> decide
  · rw [suppliedNames, suppliedLibraryNames, List.append_assoc, List.append_assoc]
    exact List.perm_append_comm.append_left _

theorem notMem_coreComponents (apart : catalog.KeepsNamesApart) {name : String}
    (isFixed : name ∈ "styles" :: fixedNames) : name ∉ document.coreComponents catalog := by
  intro membership
  rcases List.mem_cons.mp (mem_coreComponents membership) with rfl | isCore
  · exact absurd isFixed (by decide)
  · exact apart.core name isCore isFixed

theorem nodup_suppliedNames (apart : catalog.KeepsNamesApart) :
    (document.suppliedNames catalog).Nodup := by
  obtain ⟨fixed, isFixed, split⟩ := document.suppliedNames_perm catalog
  have distinct : fixedNames.Nodup := by decide
  rw [split.nodup_iff]
  refine (distinct.sublist isFixed).append nodup_coreComponents ?_
  intro name inFixed
  exact notMem_coreComponents apart (List.mem_cons_of_mem _ (isFixed.subset inFixed))

theorem styles_notMem_suppliedNames (apart : catalog.KeepsNamesApart) :
    "styles" ∉ document.suppliedNames catalog := by
  obtain ⟨fixed, isFixed, split⟩ := document.suppliedNames_perm catalog
  rw [split.mem_iff, List.mem_append, not_or]
  exact ⟨mt (isFixed.subset ·) (by decide), notMem_coreComponents apart List.mem_cons_self⟩

theorem exists_listed_of_mem_packageNames {name : String}
    (membership : name ∈ document.packageNames catalog) :
    ∃ listed ∈ catalog.packageComponents, listed.2.imported = name := by
  obtain ⟨entry, isEntry, inNames⟩ := List.mem_flatMap.mp membership
  obtain ⟨listed, isListed, -, isName⟩ :=
    (catalog.areFrom_requiredImports _).packages.known entry isEntry name inNames
  exact ⟨listed, isListed, isName⟩

theorem disjoint_suppliedNames_packageNames (apart : catalog.KeepsNamesApart) :
    (document.suppliedNames catalog).Disjoint (document.packageNames catalog) := by
  obtain ⟨fixed, isFixed, split⟩ := document.suppliedNames_perm catalog
  intro name supplied packaged
  obtain ⟨listed, isListed, rfl⟩ := exists_listed_of_mem_packageNames packaged
  rcases List.mem_append.mp (split.mem_iff.mp supplied) with inFixed | isCore
  · exact apart.package listed isListed (List.mem_cons_of_mem _ (isFixed.subset inFixed))
  · exact apart.packageCore listed isListed (mem_coreComponents isCore)

/-- What the first lines bind anyway is known when the author's other imports are cut down. -/
theorem mem_baseline_of_supplied {name : String}
    (supplied : name ∈ document.suppliedNames catalog) :
    name ∈ document.baseline catalog := by
  rw [baseline, List.mem_append, List.mem_append]
  rcases List.mem_append.mp supplied with isFixed | isLibrary
  · have useState : "useState" ∈ document.frameworkNames :=
      mem_foldl_addName.mpr (.inl List.mem_cons_self)
    have fixed : name = "React" ∨ name = "useState" ∨ name = "useNavigation" := by
      simpa using isFixed
    rcases fixed with rfl | rfl | rfl
    · exact .inl (.inl (by simp))
    · exact .inl (.inr useState)
    · exact .inl (.inl (by simp))
  · exact .inr (mem_foldl_addName.mpr (.inl isLibrary))

/-- The author adds to a module what the first lines do not bind: new entries of these lines, and
names with lines of their own. -/
theorem importedNames_perm (plain : catalog.HasPlainNames) (merges : document.MergesPlainly catalog)
    (routes : List Route) (name : String) :
    ∃ added : List String,
      (document.component catalog routes name).importedNames.Perm
        (document.suppliedNames catalog ++
          ((document.packageNames catalog).filter
            (fun name => !document.authorNames.contains name) ++ added)) ∧
      added.Subperm document.authorNames ∧
      ∀ name ∈ added, name ∉ document.suppliedNames catalog := by
  obtain ⟨framework, frameworkLine, fromFramework, newFramework, -⟩ :=
    foldl_addName ["useState"] (document.mergedEntries "react")
  obtain ⟨library, libraryLine, fromLibrary, newLibrary, -⟩ :=
    foldl_addName (document.suppliedLibraryNames catalog) (document.mergedEntries "react-native")
  refine ⟨framework.map Import.localName ++ (library.map Import.localName ++
    document.otherNames.filter fun name => !(document.baseline catalog).contains name),
    ?split, ?authored, ?new⟩
  case split =>
    have suppliedLine : (document.suppliedLibraryNames catalog).map Import.localName =
        document.suppliedLibraryNames catalog := by
      have plainNames := @plain_of_mem_suppliedLibraryNames document catalog plain
      rw [List.map_congr_left fun supplied membership =>
        Import.localName_of_plain (plainNames supplied membership)]
      exact List.map_id _
    have useState : Import.localName "useState" = "useState" := by decide
    rw [importedNames_eq plain, show document.frameworkNames = _ from frameworkLine,
      show document.libraryNames catalog = _ from libraryLine, List.map_append, List.map_append,
      suppliedLine, suppliedNames, List.perm_iff_count]
    intro counted
    simp [List.count_append, List.count_cons, useState]
    omega
  case authored =>
    have parts := (fromFramework.map Import.localName).append
      ((fromLibrary.map Import.localName).append (List.filter_sublist (l := document.otherNames)
        (p := fun name => !(document.baseline catalog).contains name)))
    exact parts.subperm.trans document.authorNames_perm.symm.subperm
  case new =>
    -- An entry that is new to its line may still bind, under an alias, a name of the line.  This is
    -- the only place where `merges` is needed.
    intro bound membership supplied
    rcases List.mem_append.mp membership with isFramework | isRest
    · obtain ⟨entry, isNew, rfl⟩ := List.mem_map.mp isFramework
      obtain rfl := merges.framework entry (fromFramework.subset isNew) supplied
      exact newFramework _ isNew List.mem_cons_self
    · rcases List.mem_append.mp isRest with isLibrary | isOther
      · obtain ⟨entry, isNew, rfl⟩ := List.mem_map.mp isLibrary
        exact newLibrary entry isNew
          (merges.library entry (fromLibrary.subset isNew) supplied)
      · obtain ⟨-, unknown⟩ := List.mem_filter.mp isOther
        have known := mem_baseline_of_supplied supplied
        exact absurd unknown (by simp [known])

/-- The imported names are distinct when the author's are, and a name from none of the three sides
is not among them. -/
theorem importedNames_distinct (plain : catalog.HasPlainNames) (apart : catalog.KeepsNamesApart)
    (merges : document.MergesPlainly catalog) (distinct : document.authorNames.Nodup)
    (routes : List Route) (name : String) :
    (document.component catalog routes name).importedNames.Nodup ∧
      ∀ fresh, fresh ∉ document.suppliedNames catalog → fresh ∉ document.packageNames catalog →
        fresh ∉ document.authorNames →
          fresh ∉ (document.component catalog routes name).importedNames := by
  obtain ⟨added, split, authored, new⟩ := importedNames_perm plain merges routes name
  constructor
  · rw [split.nodup_iff]
    have packages : (document.packageNames catalog).Nodup :=
      (catalog.areFrom_requiredImports _).packages.nodup apart.onePackage
    have addedOnce : added.Nodup := by
      obtain ⟨listed, same, inOrder⟩ := authored
      exact same.nodup_iff.mp (distinct.sublist inOrder)
    have packagesAdded : ((document.packageNames catalog).filter
        fun name => !document.authorNames.contains name).Disjoint added := by
      intro bound isPackage isAdded
      obtain ⟨-, unknown⟩ := List.mem_filter.mp isPackage
      exact absurd unknown (by simp [authored.subset isAdded])
    refine (nodup_suppliedNames apart).append
      ((packages.filter _).append addedOnce packagesAdded) ?_
    intro bound supplied isOther
    rcases List.mem_append.mp isOther with isPackage | isAdded
    · exact disjoint_suppliedNames_packageNames apart supplied (List.mem_of_mem_filter isPackage)
    · exact new bound isAdded supplied
  · intro fresh notSupplied notPackage notAuthored
    rw [split.mem_iff, List.mem_append, List.mem_append, not_or, not_or]
    exact ⟨notSupplied, mt List.mem_of_mem_filter notPackage, mt (authored.subset ·) notAuthored⟩

/-- No name is bound twice at the top level of a module whose author binds no name twice and not
that of the component, when the component is not called like something that the module imports
anyway and the author's entries of the first lines bind nothing that is bound there.  The text of
the module is its imports, its component and its stylesheet, and those bind the names. -/
theorem nodup_topLevelNames (document : Document) (routes : List Route) (path : List Char)
    (distinct : document.authorNames.Nodup)
    (notAuthored : RouteIdentity.nameOf path ∉ document.authorNames)
    (notImported : RouteIdentity.nameOf path ∉
      document.suppliedNames .standard ++ document.packageNames .standard)
    (merges : document.MergesPlainly .standard) :
    (document.component .standard routes (RouteIdentity.nameOf path)).IsWrittenIn
        (document.generate .standard routes (RouteIdentity.nameOf path)) ∧
      ((document.component .standard routes (RouteIdentity.nameOf path)).topLevelNames
        document.authorNames).Nodup := by
  have apart := Catalog.keepsNamesApart_standard
  obtain ⟨imported, free⟩ := importedNames_distinct Catalog.hasPlainNames_standard apart merges
    distinct routes (RouteIdentity.nameOf path)
  obtain ⟨notSupplied, notPackage⟩ := not_or.mp (mt List.mem_append.mpr notImported)
  have freeName := free _ notSupplied notPackage notAuthored
  have stylesPackage : "styles" ∉ document.packageNames .standard := by
    intro membership
    obtain ⟨listed, isListed, isStyles⟩ := exists_listed_of_mem_packageNames membership
    exact apart.package listed isListed (isStyles ▸ List.mem_cons_self)
  refine ⟨ComponentModule.isWrittenIn_text _, ?_⟩
  rw [ComponentModule.topLevelNames]
  split
  · refine imported.append (List.nodup_singleton _) ?_
    exact List.disjoint_singleton.mpr freeName
  · rename_i stylesFree
    have freeStyles := free _ (styles_notMem_suppliedNames apart) stylesPackage stylesFree
    refine imported.append ?_ ?_
    · exact List.nodup_cons.mpr ⟨by simp [component, RouteIdentity.nameOf_ne_styles],
        List.nodup_singleton _⟩
    · exact List.disjoint_cons_right.mpr ⟨freeName, List.disjoint_singleton.mpr freeStyles⟩

/-- A screen with an alias, a component of its own and one from a package. -/
def cardScreen : Document :=
  parse .standard
    ("import \x7b Text as Label, View \x7d from 'react-native'\n" ++
      "import Price from './x'\n<Card/>").toList

theorem nodup_topLevelNames_cardScreen :
    cardScreen.authorNames = ["Label", "View", "Price"] ∧
      (cardScreen.component .standard [] "Shop").IsWrittenIn
        (cardScreen.generate .standard [] "Shop") ∧
      ((cardScreen.component .standard [] "Shop").topLevelNames cardScreen.authorNames).Nodup := by
  have authored : cardScreen.authorNames = ["Label", "View", "Price"] := by decide +kernel
  have isName : RouteIdentity.nameOf "shop.ignite".toList = "Shop" := by decide +kernel
  refine ⟨authored, ?_⟩
  rw [← isName]
  apply nodup_topLevelNames
  · rw [authored]
    decide
  · rw [authored, isName]
    decide
  · rw [isName]
    decide +kernel
  · exact ⟨by decide +kernel, by decide +kernel⟩

/-- A screen that is called like the component it shows. -/
def viewScreen : Document :=
  parse .standard "<View/>".toList

/-- A screen that gives a component the name of one that it shows. -/
def aliasedScreen : Document :=
  parse .standard "import \x7b Text as View \x7d from 'react-native'\n<View/>".toList

/-- A component may have the name of one that its module imports, and an entry of a first line may
bind, under an alias, what is bound there already: then a name is bound twice. -/
theorem topLevelNames_repeat_View :
    (viewScreen.authorNames.Nodup ∧
      RouteIdentity.nameOf "view.ignite".toList ∉ viewScreen.authorNames ∧
      ¬((viewScreen.component .standard []
        (RouteIdentity.nameOf "view.ignite".toList)).topLevelNames viewScreen.authorNames).Nodup) ∧
    aliasedScreen.authorNames.Nodup ∧
      RouteIdentity.nameOf "home.ignite".toList ∉ aliasedScreen.authorNames ∧
      ¬((aliasedScreen.component .standard []
        (RouteIdentity.nameOf "home.ignite".toList)).topLevelNames
          aliasedScreen.authorNames).Nodup := by
  decide +kernel

end Document

end ScreenCompiler
