import Mathlib.Data.List.Induction
import ScreenCompiler.Catalog.Standard
import ScreenCompiler.Proofs.Catalog.Required

/-!
# Kinds of package imports

Which names the tags of a source import from which package depends on the set of the tags
alone.  The kind of a package import is that of the first tag that needs the package, so
it is the kind of every component of the package exactly in catalogs that give all
components of one package the same kind.
-/

namespace ScreenCompiler

open Text

namespace Text

theorem eq_of_ascending {names others : List String} (sorted : names.Pairwise (· < ·))
    (othersSorted : others.Pairwise (· < ·)) (same : ∀ name, name ∈ names ↔ name ∈ others) :
    names = others := by
  refine List.Perm.eq_of_pairwise ?_ sorted othersSorted
    ((List.perm_ext_iff_of_nodup (nodup_of_ascending sorted)
      (nodup_of_ascending othersSorted)).mpr same)
  exact fun first second _ _ before behind => absurd before (lt_asymm behind)

end Text

namespace PackageImport

variable {component : PackageComponent} {entries others : List PackageImport} {package : String}

/-- The entry of a package. -/
def ofPackage? (entries : List PackageImport) (package : String) : Option PackageImport :=
  entries.find? (·.package == package)

theorem ofPackage?_cons (entry : PackageImport) (entries : List PackageImport) (package : String) :
    ofPackage? (entry :: entries) package =
      if entry.package = package then some entry else ofPackage? entries package := by
  simp only [ofPackage?, List.find?_cons, beq_eq_decide]
  split <;> simp_all

theorem mem_of_ofPackage? {entry : PackageImport}
    (found : ofPackage? entries package = some entry) :
    entry ∈ entries ∧ entry.package = package :=
  ⟨List.mem_of_find?_eq_some found, by simpa using List.find?_some found⟩

theorem ofPackage?_eq_none (absent : ∀ entry ∈ entries, entry.package ≠ package) :
    ofPackage? entries package = none :=
  List.find?_eq_none.mpr fun entry listed => by simpa using absent entry listed

theorem ofPackage?_eq_some {entry : PackageImport}
    (sorted : (entries.map PackageImport.package).Pairwise (· < ·)) (listed : entry ∈ entries) :
    ofPackage? entries entry.package = some entry := by
  induction entries with
  | nil => exact absurd listed List.not_mem_nil
  | cons first entries inductionHypothesis =>
      obtain ⟨firstBefore, laterSorted⟩ := List.pairwise_cons.mp sorted
      rw [ofPackage?_cons]
      rcases List.mem_cons.mp listed with rfl | isLater
      · exact if_pos rfl
      · rw [if_neg (ne_of_lt (firstBefore _ (List.mem_map_of_mem isLater)))]
        exact inductionHypothesis laterSorted isLater

/-- The entry of a package with a component added. -/
def withComponent (component : PackageComponent) : Option PackageImport → PackageImport
  | some entry => { entry with names := insertName component.imported entry.names }
  | none => ⟨component.package, component.kind, [component.imported]⟩

theorem mem_names_withComponent {name : String} {entry : Option PackageImport} :
    name ∈ (withComponent component entry).names ↔
      name = component.imported ∨ name ∈ entry.elim [] PackageImport.names := by
  cases entry with
  | none => simp [withComponent]
  | some entry => exact mem_insertName

/-- Adding a component changes the entry of its package and no other. -/
theorem ofPackage?_insert (sorted : (entries.map PackageImport.package).Pairwise (· < ·)) :
    ofPackage? (insert component entries) package =
      if component.package = package then
        some (withComponent component (ofPackage? entries package))
      else ofPackage? entries package := by
  induction entries with
  | nil => exact ofPackage?_cons _ _ _
  | cons first entries inductionHypothesis =>
      obtain ⟨firstBefore, laterSorted⟩ := List.pairwise_cons.mp sorted
      rw [insert]
      split
      · rename_i before
        have absent : ofPackage? (first :: entries) component.package = none := by
          refine ofPackage?_eq_none (List.forall_mem_cons.mpr ⟨(ne_of_lt before).symm, ?_⟩)
          intro later isLater
          exact (ne_of_lt (before.trans (firstBefore _ (List.mem_map_of_mem isLater)))).symm
        rw [ofPackage?_cons]
        split
        · rename_i same
          rw [← same, absent, withComponent]
        · rfl
      · split
        · rename_i same
          rw [ofPackage?_cons, ofPackage?_cons, same]
          split <;> rfl
        · rename_i differs
          rw [ofPackage?_cons, ofPackage?_cons, inductionHypothesis laterSorted]
          split
          · rename_i isFirst
            rw [if_neg fun isComponent => differs (isComponent.trans isFirst.symm)]
          · rfl

/-- The entries for a list of components: every package once, with the names of its components and
the kind of the first of them. -/
structure AreOf (components : List PackageComponent) (entries : List PackageImport) : Prop where
  packages : (entries.map PackageImport.package).Pairwise (· < ·)
  ordered : ∀ entry ∈ entries, entry.names.Pairwise (· < ·)
  kinds : ∀ package, (ofPackage? entries package).map PackageImport.kind =
    (components.find? (·.package == package)).map PackageComponent.kind
  names : ∀ package name, name ∈ (ofPackage? entries package).elim [] PackageImport.names ↔
    ∃ component ∈ components, component.package = package ∧ component.imported = name

theorem areOf_nil : AreOf [] [] :=
  ⟨.nil, by simp, by simp [ofPackage?], by simp [ofPackage?]⟩

theorem AreOf.insert {components : List PackageComponent} (areOf : AreOf components entries)
    (component : PackageComponent) :
    AreOf (components ++ [component]) (insert component entries) where
  packages := packages_insert areOf.packages
  ordered := by
    intro entry membership
    rcases mem_insert membership with before | ⟨-, isNew | ⟨other, isOther, -, isLonger⟩⟩
    · exact areOf.ordered entry before
    · rw [isNew]
      exact List.pairwise_singleton _ _
    · rw [isLonger]
      exact pairwise_insertName (areOf.ordered other isOther)
  kinds := by
    intro package
    have kind := areOf.kinds package
    rw [ofPackage?_insert areOf.packages, List.find?_append]
    split
    · rename_i same
      subst same
      cases found : ofPackage? entries component.package <;>
        cases first : components.find? (·.package == component.package) <;>
        simp_all [withComponent]
    · rename_i differs
      rw [kind, List.find?_singleton, if_neg (by simpa using differs), Option.or_none]
  names := by
    intro package name
    have split : (∃ other ∈ components ++ [component],
        other.package = package ∧ other.imported = name) ↔
        (component.package = package ∧ component.imported = name) ∨
          ∃ other ∈ components, other.package = package ∧ other.imported = name := by
      simp [or_and_right, exists_or, or_comm]
    rw [ofPackage?_insert areOf.packages, split, ← areOf.names package name]
    split
    · rename_i same
      rw [Option.elim_some, mem_names_withComponent, and_iff_right same, eq_comm]
    · rename_i differs
      rw [or_iff_right fun isComponent => differs isComponent.1]

variable {components fewer : List PackageComponent}

theorem AreOf.mem_packages (areOf : AreOf components entries) :
    package ∈ entries.map PackageImport.package ↔
      ∃ component ∈ components, component.package = package := by
  have kind := areOf.kinds package
  constructor
  · intro listed
    obtain ⟨entry, isEntry, rfl⟩ := List.mem_map.mp listed
    rw [ofPackage?_eq_some areOf.packages isEntry] at kind
    obtain ⟨component, found, -⟩ := Option.map_eq_some_iff.mp kind.symm
    exact ⟨component, List.mem_of_find?_eq_some found, by simpa using List.find?_some found⟩
  · rintro ⟨component, isComponent, rfl⟩
    have named := (areOf.names component.package component.imported).mpr
      ⟨component, isComponent, rfl, rfl⟩
    cases found : ofPackage? entries component.package with
    | none => simp [found] at named
    | some entry =>
        obtain ⟨listed, same⟩ := mem_of_ofPackage? found
        exact same ▸ List.mem_map_of_mem listed

/-- Entries for the same components agree in whatever entries of one package agree in. -/
theorem AreOf.map_eq {Out : Type} (read : PackageImport → Out) (areOf : AreOf components entries)
    (areOfOthers : AreOf fewer others)
    (same : ∀ component, component ∈ components ↔ component ∈ fewer)
    (agree : ∀ entry ∈ entries, ∀ other ∈ others, entry.package = other.package →
      read entry = read other) : entries.map read = others.map read := by
  have packages : entries.map PackageImport.package = others.map PackageImport.package := by
    refine eq_of_ascending areOf.packages areOfOthers.packages fun package => ?_
    simp only [areOf.mem_packages, areOfOthers.mem_packages, same]
  have lengths : entries.length = others.length := by
    simpa using congrArg List.length packages
  refine List.ext_getElem (by simpa using lengths) fun index inEntries inOthers => ?_
  rw [List.length_map] at inEntries inOthers
  have samePackage := List.getElem_of_eq packages (by simpa using inEntries)
  rw [List.getElem_map, List.getElem_map] at samePackage
  simpa using agree _ (List.getElem_mem inEntries) _ (List.getElem_mem inOthers) samePackage

theorem AreOf.names_eq (areOf : AreOf components entries) (areOfOthers : AreOf fewer others)
    (same : ∀ component, component ∈ components ↔ component ∈ fewer) {entry other : PackageImport}
    (listed : entry ∈ entries) (otherListed : other ∈ others)
    (samePackage : entry.package = other.package) : entry.names = other.names := by
  refine eq_of_ascending (areOf.ordered entry listed) (areOfOthers.ordered other otherListed)
    fun name => ?_
  have inEntry := areOf.names entry.package name
  have inOther := areOfOthers.names other.package name
  rw [ofPackage?_eq_some areOf.packages listed] at inEntry
  rw [ofPackage?_eq_some areOfOthers.packages otherListed, ← samePackage] at inOther
  simp only [Option.elim_some, same] at inEntry inOther
  rw [inEntry, inOther]

end PackageImport

namespace Catalog

/-- The components that tags have in packages, in the order of the tags. -/
def packaged (catalog : Catalog) (tags : List String) : List PackageComponent :=
  tags.filterMap fun tag => catalog.packageComponents.lookup tag

/-- Whether a tag stands for a core component, as far as no package has it. -/
def isCore (catalog : Catalog) (tag : String) : Bool :=
  (catalog.packageComponents.lookup tag).isNone &&
    catalog.coreComponents.contains (catalog.target tag)

/-- Whether the author has to import the component of a tag. -/
def isLeftToAuthor (catalog : Catalog) (tag : String) : Bool :=
  (catalog.packageComponents.lookup tag).isNone &&
    !catalog.coreComponents.contains (catalog.target tag)

end Catalog

namespace RequiredImports

variable {catalog : Catalog} {required : RequiredImports} {tags : List String}

/-- What a list of tags requires.  Only the kinds of the packages depend on the order of the
tags. -/
structure IsOf (catalog : Catalog) (tags : List String) (required : RequiredImports) : Prop where
  coreOrdered : required.core.Pairwise (· < ·)
  core : ∀ name, name ∈ required.core ↔ name ∈ (tags.filter catalog.isCore).map catalog.target
  customOrdered : required.custom.Pairwise (· < ·)
  custom : ∀ name, name ∈ required.custom ↔ name ∈ tags.filter catalog.isLeftToAuthor
  packages : PackageImport.AreOf (catalog.packaged tags) required.packages

theorem isOf_empty (catalog : Catalog) : IsOf catalog [] empty :=
  ⟨.nil, by simp [empty], .nil, by simp [empty], PackageImport.areOf_nil⟩

theorem IsOf.add (isOf : IsOf catalog tags required) (tag : String) :
    IsOf catalog (tags ++ [tag]) (required.add catalog tag) := by
  obtain ⟨coreOrdered, core, customOrdered, custom, packages⟩ := isOf
  have packaged : catalog.packaged (tags ++ [tag]) =
      catalog.packaged tags ++ (catalog.packageComponents.lookup tag).toList := by
    cases found : catalog.packageComponents.lookup tag <;>
      simp [Catalog.packaged, List.filterMap_append, found]
  rw [RequiredImports.add]
  split
  · rename_i component found
    rw [found] at packaged
    have notCore : catalog.isCore tag = false := by rw [Catalog.isCore, found]; rfl
    have notLeft : catalog.isLeftToAuthor tag = false := by rw [Catalog.isLeftToAuthor, found]; rfl
    refine ⟨coreOrdered, ?_, customOrdered, ?_, packaged ▸ packages.insert component⟩
    · simp [core, notCore]
    · simp [custom, notLeft]
  · rename_i missing
    rw [missing, Option.toList_none, List.append_nil] at packaged
    split
    · rename_i inCore
      have isCore : catalog.isCore tag = true := by rw [Catalog.isCore, missing, inCore]; rfl
      have notLeft : catalog.isLeftToAuthor tag = false := by
        rw [Catalog.isLeftToAuthor, missing, inCore]
        rfl
      refine ⟨pairwise_insertName coreOrdered, ?_, customOrdered, ?_, packaged ▸ packages⟩
      · intro name
        rw [mem_insertName, core, List.filter_append, List.filter_cons_of_pos isCore,
          List.filter_nil, List.map_append, List.mem_append, List.map_singleton,
          List.mem_singleton, or_comm]
      · simp [custom, notLeft]
    · rename_i notInCore
      rw [Bool.not_eq_true] at notInCore
      have notCore : catalog.isCore tag = false := by rw [Catalog.isCore, missing, notInCore]; rfl
      have isLeft : catalog.isLeftToAuthor tag = true := by
        rw [Catalog.isLeftToAuthor, missing, notInCore]
        rfl
      refine ⟨coreOrdered, ?_, pairwise_insertName customOrdered, ?_, packaged ▸ packages⟩
      · simp [core, notCore]
      · intro name
        rw [mem_insertName, custom, List.filter_append, List.filter_cons_of_pos isLeft,
          List.filter_nil, List.mem_append, List.mem_singleton, or_comm]

theorem isOf_requiredImports (catalog : Catalog) (tags : List String) :
    IsOf catalog tags (catalog.requiredImports tags) := by
  induction tags using List.reverseRecOn with
  | nil => exact isOf_empty catalog
  | append_singleton tags tag inductionHypothesis =>
      rw [Catalog.requiredImports, List.foldl_concat]
      exact inductionHypothesis.add tag

end RequiredImports

namespace Catalog

/-- Whether the components that the catalog has in one package are all exported in one way. -/
def HasOneKind (catalog : Catalog) : Prop :=
  ∀ first second component other, catalog.packageComponents.lookup first = some component →
    catalog.packageComponents.lookup second = some other →
      component.package = other.package → component.kind = other.kind

/-- Whether what tags require is the same for all lists of the same tags. -/
def DependsOnTagsAlone (catalog : Catalog) : Prop :=
  ∀ first second : List String, (∀ tag, tag ∈ first ↔ tag ∈ second) →
    catalog.requiredImports first = catalog.requiredImports second

/-- Whether every package component is imported from its package in its own way. -/
def KeepsKinds (catalog : Catalog) : Prop :=
  ∀ tags : List String, ∀ tag ∈ tags, ∀ component,
    catalog.packageComponents.lookup tag = some component →
      ∃ entry ∈ (catalog.requiredImports tags).packages, entry.package = component.package ∧
        component.imported ∈ entry.names ∧ entry.kind = component.kind

variable {catalog : Catalog} {tags : List String} {tag : String} {component : PackageComponent}

theorem mem_packaged : component ∈ catalog.packaged tags ↔
    ∃ tag ∈ tags, catalog.packageComponents.lookup tag = some component := by
  rw [packaged, List.mem_filterMap]

/-- The entry of a component's package holds the component, whatever its kind. -/
theorem exists_entry (used : tag ∈ tags)
    (found : catalog.packageComponents.lookup tag = some component) :
    ∃ entry ∈ (catalog.requiredImports tags).packages, entry.package = component.package ∧
      component.imported ∈ entry.names := by
  have packages := (RequiredImports.isOf_requiredImports catalog tags).packages
  have named := (packages.names component.package component.imported).mpr
    ⟨component, mem_packaged.mpr ⟨tag, used, found⟩, rfl, rfl⟩
  cases isEntry : PackageImport.ofPackage? (catalog.requiredImports tags).packages
      component.package with
  | none => simp [isEntry] at named
  | some entry =>
      rw [isEntry, Option.elim_some] at named
      obtain ⟨listed, package⟩ := PackageImport.mem_of_ofPackage? isEntry
      exact ⟨entry, listed, package, named⟩

/-- A package is imported in the way of some component that it has. -/
theorem exists_component {entry : PackageImport}
    (listed : entry ∈ (catalog.requiredImports tags).packages) :
    ∃ tag component, catalog.packageComponents.lookup tag = some component ∧
      component.package = entry.package ∧ component.kind = entry.kind := by
  have packages := (RequiredImports.isOf_requiredImports catalog tags).packages
  have kind := packages.kinds entry.package
  rw [PackageImport.ofPackage?_eq_some packages.packages listed] at kind
  obtain ⟨component, isFirst, sameKind⟩ := Option.map_eq_some_iff.mp kind.symm
  obtain ⟨tag, -, found⟩ := mem_packaged.mp (List.mem_of_find?_eq_some isFirst)
  exact ⟨tag, component, found, by simpa using List.find?_some isFirst, sameKind⟩

theorem keepsKinds_iff : catalog.KeepsKinds ↔ catalog.HasOneKind := by
  constructor
  · intro keeps first second component other found foundOther samePackage
    have packages := (RequiredImports.isOf_requiredImports catalog [first, second]).packages
    obtain ⟨entry, listed, package, -, kind⟩ :=
      keeps [first, second] first (by simp) component found
    obtain ⟨entryOther, listedOther, packageOther, -, kindOther⟩ :=
      keeps [first, second] second (by simp) other foundOther
    have isEntry := PackageImport.ofPackage?_eq_some packages.packages listed
    have isEntryOther := PackageImport.ofPackage?_eq_some packages.packages listedOther
    rw [packageOther, ← samePackage, ← package, isEntry, Option.some_inj] at isEntryOther
    rw [← kind, ← kindOther, isEntryOther]
  · intro oneKind tags tag used component found
    obtain ⟨entry, listed, package, named⟩ := exists_entry used found
    obtain ⟨other, otherComponent, foundOther, samePackage, sameKind⟩ := exists_component listed
    refine ⟨entry, listed, package, named, ?_⟩
    rw [← sameKind]
    exact oneKind other tag otherComponent component foundOther found (samePackage.trans package)

theorem mem_packaged_congr {first second : List String} (same : ∀ tag, tag ∈ first ↔ tag ∈ second) :
    component ∈ catalog.packaged first ↔ component ∈ catalog.packaged second := by
  simp only [mem_packaged, same]

/-- Lists of the same tags require the same core components, the same of the author, and the same
names of the same packages. -/
theorem requiredImports_congr {first second : List String}
    (same : ∀ tag, tag ∈ first ↔ tag ∈ second) :
    (catalog.requiredImports first).core = (catalog.requiredImports second).core ∧
      (catalog.requiredImports first).custom = (catalog.requiredImports second).custom ∧
      (catalog.requiredImports first).packages.map (fun entry => (entry.package, entry.names)) =
        (catalog.requiredImports second).packages.map
          fun entry => (entry.package, entry.names) := by
  have isOf := RequiredImports.isOf_requiredImports catalog first
  have isOfSecond := RequiredImports.isOf_requiredImports catalog second
  have sameComponents : ∀ component, component ∈ catalog.packaged first ↔
      component ∈ catalog.packaged second := fun _ => mem_packaged_congr same
  refine ⟨eq_of_ascending isOf.coreOrdered isOfSecond.coreOrdered fun name => ?_,
    eq_of_ascending isOf.customOrdered isOfSecond.customOrdered fun name => ?_,
    isOf.packages.map_eq _ isOfSecond.packages sameComponents ?_⟩
  · simp only [isOf.core, isOfSecond.core, List.mem_map, List.mem_filter, same]
  · simp only [isOf.custom, isOfSecond.custom, List.mem_filter, same]
  · intro entry listed other listedOther samePackage
    rw [samePackage,
      isOf.packages.names_eq isOfSecond.packages sameComponents listed listedOther samePackage]

theorem dependsOnTagsAlone_iff : catalog.DependsOnTagsAlone ↔ catalog.HasOneKind := by
  constructor
  · intro alone first second component other found foundOther samePackage
    have packages := (RequiredImports.isOf_requiredImports catalog [first, second]).packages
    have swapped := (RequiredImports.isOf_requiredImports catalog [second, first]).packages
    have same := alone [first, second] [second, first] fun tag => by simp [or_comm]
    -- Each of the two tags decides the kind in the list that it starts.
    have kind := packages.kinds component.package
    have kindSwapped := swapped.kinds component.package
    rw [same, kindSwapped] at kind
    simpa [packaged, found, foundOther, samePackage] using kind.symm
  · intro oneKind first second same
    obtain ⟨core, custom, -⟩ := @requiredImports_congr catalog _ _ same
    have isOf := RequiredImports.isOf_requiredImports catalog first
    have isOfSecond := RequiredImports.isOf_requiredImports catalog second
    have packages := isOf.packages.map_eq id isOfSecond.packages (fun _ => mem_packaged_congr same)
      fun entry listed other listedOther samePackage => by
        obtain ⟨tag, component, found, package, kind⟩ := exists_component listed
        obtain ⟨otherTag, otherComponent, foundOther, otherPackage, otherKind⟩ :=
          exists_component listedOther
        have names := isOf.packages.names_eq isOfSecond.packages
          (fun _ => mem_packaged_congr same) listed listedOther samePackage
        have sameKind := oneKind tag otherTag component otherComponent found foundOther
          (package.trans (samePackage.trans otherPackage.symm))
        rw [kind, otherKind] at sameKind
        cases entry
        cases other
        simp_all
    rw [List.map_id, List.map_id] at packages
    exact RequiredImports.mk.injEq .. |>.mpr ⟨core, packages, custom⟩

/-- What a list of tags requires depends on its tags alone up to the kinds of the packages, and the
kind of a package is that of the first tag that needs it.  So nothing at all depends on the order of
the tags, and every component keeps its kind, exactly in catalogs with one kind in each package. -/
theorem requiredImports_upToKinds (catalog : Catalog) :
    (∀ first second : List String, (∀ tag, tag ∈ first ↔ tag ∈ second) →
      (catalog.requiredImports first).core = (catalog.requiredImports second).core ∧
      (catalog.requiredImports first).custom = (catalog.requiredImports second).custom ∧
      (catalog.requiredImports first).packages.map (fun entry => (entry.package, entry.names)) =
        (catalog.requiredImports second).packages.map fun entry => (entry.package, entry.names)) ∧
      (∀ tags : List String, ∀ tag ∈ tags, ∀ component,
        catalog.packageComponents.lookup tag = some component →
          ∃ entry ∈ (catalog.requiredImports tags).packages, entry.package = component.package ∧
            component.imported ∈ entry.names) ∧
      (∀ tags : List String, ∀ entry ∈ (catalog.requiredImports tags).packages,
        ((catalog.packaged tags).find? (·.package == entry.package)).map PackageComponent.kind =
          some entry.kind) ∧
      (catalog.DependsOnTagsAlone ↔ catalog.HasOneKind) ∧
      (catalog.KeepsKinds ↔ catalog.HasOneKind) := by
  refine ⟨fun first second => requiredImports_congr, ?_, ?_, dependsOnTagsAlone_iff, keepsKinds_iff⟩
  · exact fun tags tag used component found => exists_entry used found
  · intro tags entry listed
    have packages := (RequiredImports.isOf_requiredImports catalog tags).packages
    rw [← packages.kinds, PackageImport.ofPackage?_eq_some packages.packages listed,
      Option.map_some]

/-- The standard catalog with a component that comes from the package of the maps by its name, next
to the map itself, which is what the package exports as a whole. -/
def withMarker : Catalog :=
  { standard with packageComponents := standard.packageComponents ++
      [("Marker", ⟨"react-native-maps", "Marker", .named⟩)] }

/-- The tag that is read first decides how both components are imported. -/
theorem requiredImports_withMarker :
    withMarker.requiredImports ["MapView", "Marker"] =
        ⟨[], [⟨"react-native-maps", .default, ["MapView", "Marker"]⟩], []⟩ ∧
      withMarker.requiredImports ["Marker", "MapView"] =
        ⟨[], [⟨"react-native-maps", .named, ["MapView", "Marker"]⟩], []⟩ ∧
      ¬withMarker.DependsOnTagsAlone ∧ ¬withMarker.KeepsKinds := by
  have mapFirst : withMarker.requiredImports ["MapView", "Marker"] =
      ⟨[], [⟨"react-native-maps", .default, ["MapView", "Marker"]⟩], []⟩ := by decide +kernel
  have markerFirst : withMarker.requiredImports ["Marker", "MapView"] =
      ⟨[], [⟨"react-native-maps", .named, ["MapView", "Marker"]⟩], []⟩ := by decide +kernel
  refine ⟨mapFirst, markerFirst, fun alone => ?_, fun keeps => ?_⟩
  · have same := alone ["MapView", "Marker"] ["Marker", "MapView"] fun tag => by simp [or_comm]
    rw [mapFirst, markerFirst] at same
    exact absurd same (by decide)
  · obtain ⟨entry, listed, -, -, kind⟩ := keeps ["MapView", "Marker"] "Marker" (by simp)
      ⟨"react-native-maps", "Marker", .named⟩ (by decide +kernel)
    rw [mapFirst, List.mem_singleton] at listed
    rw [listed] at kind
    exact absurd kind (by decide)

theorem hasOneKind_standard : standard.HasOneKind := by
  have oneKind : ∀ first ∈ standard.packageComponents, ∀ second ∈ standard.packageComponents,
      first.2.package = second.2.package → first.2.kind = second.2.kind := by
    decide +kernel
  have listed : ∀ {tag component}, standard.packageComponents.lookup tag = some component →
      (tag, component) ∈ standard.packageComponents := by
    intro tag component found
    obtain ⟨before, after, split, -⟩ := List.lookup_eq_some_iff.mp found
    simp [split]
  intro first second component other found foundOther samePackage
  exact oneKind _ (listed found) _ (listed foundOther) samePackage

end Catalog

end ScreenCompiler
