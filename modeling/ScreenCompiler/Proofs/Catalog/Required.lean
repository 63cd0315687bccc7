import Mathlib.Data.List.Nodup
import Mathlib.Data.String.Basic
import ScreenCompiler.Catalog.Imports

/-!
# What required imports consist of

A tag asks for the import of its package, of its core component, or for none.  The
names of each part come in ascending order, so each is there once, and one package is
listed once.
-/

namespace ScreenCompiler

open Text

namespace Text

theorem pairwise_insertName {name : String} {names : List String}
    (sorted : names.Pairwise (· < ·)) : (insertName name names).Pairwise (· < ·) := by
  induction names with
  | nil => exact List.pairwise_singleton _ _
  | cons other names inductionHypothesis =>
      obtain ⟨first, later⟩ := List.pairwise_cons.mp sorted
      rw [insertName]
      split
      · rename_i before
        refine List.pairwise_cons.mpr ⟨?_, sorted⟩
        exact List.forall_mem_cons.mpr
          ⟨before, fun member inNames => before.trans (first member inNames)⟩
      · rename_i notBefore
        split
        · exact sorted
        · rename_i differs
          refine List.pairwise_cons.mpr ⟨?_, inductionHypothesis later⟩
          intro member membership
          rcases mem_insertName.mp membership with rfl | inNames
          · exact lt_of_le_of_ne (not_lt.mp notBefore) (Ne.symm differs)
          · exact first member inNames

theorem nodup_of_ascending {names : List String} (sorted : names.Pairwise (· < ·)) :
    names.Nodup :=
  sorted.imp ne_of_lt

end Text

namespace PackageImport

/-- Each package once, with each of its names once, and only names that components of the catalog
have from the package. -/
structure AreFrom (catalog : Catalog) (entries : List PackageImport) : Prop where
  packages : (entries.map PackageImport.package).Pairwise (· < ·)
  names : ∀ entry ∈ entries, entry.names.Pairwise (· < ·)
  known : ∀ entry ∈ entries, ∀ name ∈ entry.names, ∃ listed ∈ catalog.packageComponents,
    listed.2.package = entry.package ∧ listed.2.imported = name

variable {component : PackageComponent} {entries : List PackageImport}

theorem package_mem_insert {package : String}
    (membership : package ∈ (insert component entries).map PackageImport.package) :
    package = component.package ∨ package ∈ entries.map PackageImport.package := by
  induction entries with
  | nil => simpa [insert] using membership
  | cons entry entries inductionHypothesis =>
      rw [insert] at membership
      split at membership
      · simpa using membership
      · split at membership
        · exact .inr (by simpa using membership)
        · rw [List.map_cons, List.mem_cons] at membership
          rcases membership with isFirst | inLater
          · exact .inr (by simp [isFirst])
          · rcases inductionHypothesis inLater with isGiven | inEntries
            · exact .inl isGiven
            · exact .inr (List.mem_cons_of_mem _ inEntries)

theorem packages_insert (sorted : (entries.map PackageImport.package).Pairwise (· < ·)) :
    ((insert component entries).map PackageImport.package).Pairwise (· < ·) := by
  induction entries with
  | nil => exact List.pairwise_singleton _ _
  | cons entry entries inductionHypothesis =>
      obtain ⟨first, later⟩ := List.pairwise_cons.mp sorted
      rw [insert]
      split
      · rename_i before
        refine List.pairwise_cons.mpr ⟨?_, sorted⟩
        exact List.forall_mem_cons.mpr
          ⟨before, fun package listed => before.trans (first package listed)⟩
      · rename_i notBefore
        split
        · exact sorted
        · rename_i differs
          refine List.pairwise_cons.mpr ⟨?_, inductionHypothesis later⟩
          intro package membership
          rcases package_mem_insert membership with rfl | listed
          · exact lt_of_le_of_ne (not_lt.mp notBefore) (Ne.symm differs)
          · exact first package listed

/-- An entry with a component added is one that was there, or that of the package of the
component. -/
theorem mem_insert {entry : PackageImport} (membership : entry ∈ insert component entries) :
    entry ∈ entries ∨ (entry.package = component.package ∧
      (entry.names = [component.imported] ∨ ∃ other ∈ entries,
        other.package = component.package ∧
          entry.names = insertName component.imported other.names)) := by
  induction entries with
  | nil =>
      obtain rfl := List.mem_singleton.mp membership
      exact .inr ⟨rfl, .inl rfl⟩
  | cons first entries inductionHypothesis =>
      rw [insert] at membership
      split at membership
      · rcases List.mem_cons.mp membership with rfl | listed
        · exact .inr ⟨rfl, .inl rfl⟩
        · exact .inl listed
      · split at membership
        · rename_i same
          rcases List.mem_cons.mp membership with rfl | listed
          · exact .inr ⟨same.symm, .inr ⟨first, List.mem_cons_self, same.symm, rfl⟩⟩
          · exact .inl (List.mem_cons_of_mem _ listed)
        · rcases List.mem_cons.mp membership with rfl | inLater
          · exact .inl List.mem_cons_self
          · rcases inductionHypothesis inLater with listed | ⟨same, isNew | ⟨other, isOther, rest⟩⟩
            · exact .inl (List.mem_cons_of_mem _ listed)
            · exact .inr ⟨same, .inl isNew⟩
            · exact .inr ⟨same, .inr ⟨other, List.mem_cons_of_mem _ isOther, rest⟩⟩

theorem mem_names_insert {name : String} :
    name ∈ (insert component entries).flatMap PackageImport.names ↔
      name = component.imported ∨ name ∈ entries.flatMap PackageImport.names := by
  induction entries with
  | nil => simp [insert]
  | cons entry entries inductionHypothesis =>
      rw [insert]
      split
      · simp
      · split
        · simp [mem_insertName, or_assoc]
        · rw [List.flatMap_cons, List.mem_append, inductionHypothesis, List.flatMap_cons,
            List.mem_append, or_left_comm]

theorem AreFrom.insert {catalog : Catalog} {tag : String} (areFrom : AreFrom catalog entries)
    (listed : (tag, component) ∈ catalog.packageComponents) :
    AreFrom catalog (insert component entries) where
  packages := packages_insert areFrom.packages
  names := by
    intro entry membership
    rcases mem_insert membership with before | ⟨-, isNew | ⟨other, isOther, -, isLonger⟩⟩
    · exact areFrom.names entry before
    · rw [isNew]
      exact List.pairwise_singleton _ _
    · rw [isLonger]
      exact pairwise_insertName (areFrom.names other isOther)
  known := by
    intro entry membership name inNames
    have here : ∃ listed ∈ catalog.packageComponents,
        listed.2.package = component.package ∧ listed.2.imported = component.imported :=
      ⟨(tag, component), listed, rfl, rfl⟩
    rcases mem_insert membership with before | ⟨same, isNew | ⟨other, isOther, sameOther, isLonger⟩⟩
    · exact areFrom.known entry before name inNames
    · rw [isNew, List.mem_singleton] at inNames
      rw [same, inNames]
      exact here
    · rw [isLonger] at inNames
      rw [same]
      rcases mem_insertName.mp inNames with rfl | inOther
      · exact here
      · rw [← sameOther]
        exact areFrom.known other isOther name inOther

/-- Names of different packages differ, so no name is there twice. -/
theorem AreFrom.nodup {catalog : Catalog} (areFrom : AreFrom catalog entries)
    (onePackage : ∀ first ∈ catalog.packageComponents, ∀ second ∈ catalog.packageComponents,
      first.2.imported = second.2.imported → first.2.package = second.2.package) :
    (entries.flatMap PackageImport.names).Nodup := by
  refine List.nodup_flatMap.mpr ⟨?_, ?_⟩
  · intro entry membership
    exact nodup_of_ascending (areFrom.names entry membership)
  · refine List.Pairwise.imp_of_mem ?_ (List.pairwise_map.mp areFrom.packages)
    intro first second firstIn secondIn before name inFirst inSecond
    obtain ⟨listed, isListed, package, isName⟩ := areFrom.known first firstIn name inFirst
    obtain ⟨other, isOther, otherPackage, otherName⟩ :=
      areFrom.known second secondIn name inSecond
    have same := onePackage listed isListed other isOther (isName.trans otherName.symm)
    rw [package, otherPackage] at same
    exact absurd same (ne_of_lt before)

end PackageImport

namespace RequiredImports

variable {catalog : Catalog} {required : RequiredImports} {tag : String} {tags : List String}

/-- Required imports as the catalog has them, in order. -/
structure AreFrom (catalog : Catalog) (required : RequiredImports) : Prop where
  core : required.core.Pairwise (· < ·)
  isCore : ∀ name ∈ required.core, name ∈ catalog.coreComponents
  packages : PackageImport.AreFrom catalog required.packages

/-- What required imports have for a tag: a package import, a core component, or the remark that
the author has to import it. -/
def Cover (catalog : Catalog) (required : RequiredImports) (tag : String) : Prop :=
  tag ∈ required.custom ∨ catalog.target tag ∈ required.core ∨
    ∃ component, catalog.packageComponents.lookup tag = some component ∧
      component.imported ∈ required.packages.flatMap PackageImport.names

theorem areFrom_empty (catalog : Catalog) : AreFrom catalog empty where
  core := .nil
  isCore := by simp [empty]
  packages := ⟨.nil, by simp [empty], by simp [empty]⟩

theorem AreFrom.add (areFrom : required.AreFrom catalog) (tag : String) :
    (required.add catalog tag).AreFrom catalog := by
  rw [RequiredImports.add]
  split
  · rename_i component found
    obtain ⟨before, after, split, -⟩ := List.lookup_eq_some_iff.mp found
    have listed : (tag, component) ∈ catalog.packageComponents := by simp [split]
    exact ⟨areFrom.core, areFrom.isCore, areFrom.packages.insert listed⟩
  · split
    · rename_i isCore
      refine ⟨pairwise_insertName areFrom.core, ?_, areFrom.packages⟩
      intro name membership
      rcases mem_insertName.mp membership with rfl | before
      · exact List.contains_iff_mem.mp isCore
      · exact areFrom.isCore name before
    · exact ⟨areFrom.core, areFrom.isCore, areFrom.packages⟩

theorem Cover.add (covers : required.Cover catalog tag) (other : String) :
    (required.add catalog other).Cover catalog tag := by
  rw [RequiredImports.add]
  rcases covers with isCustom | isCore | ⟨component, found, inPackages⟩
  · left
    split
    · exact isCustom
    · split
      · exact isCustom
      · exact mem_insertName.mpr (.inr isCustom)
  · right; left
    split
    · exact isCore
    · split
      · exact mem_insertName.mpr (.inr isCore)
      · exact isCore
  · right; right
    refine ⟨component, found, ?_⟩
    split
    · exact PackageImport.mem_names_insert.mpr (.inr inPackages)
    · split <;> exact inPackages

theorem cover_add_self (catalog : Catalog) (required : RequiredImports) (tag : String) :
    (required.add catalog tag).Cover catalog tag := by
  rw [RequiredImports.add]
  split
  · rename_i component found
    exact .inr (.inr ⟨component, found, PackageImport.mem_names_insert.mpr (.inl rfl)⟩)
  · split
    · exact .inr (.inl (mem_insertName.mpr (.inl rfl)))
    · exact .inl (mem_insertName.mpr (.inl rfl))

end RequiredImports

namespace Catalog

theorem areFrom_requiredImports (catalog : Catalog) (tags : List String) :
    (catalog.requiredImports tags).AreFrom catalog :=
  List.foldlRecOn tags _ (RequiredImports.areFrom_empty catalog)
    fun _ areFrom tag _ => areFrom.add tag

theorem cover_requiredImports (catalog : Catalog) {tag : String} {tags : List String}
    (membership : tag ∈ tags) : (catalog.requiredImports tags).Cover catalog tag := by
  obtain ⟨before, after, rfl⟩ := List.append_of_mem membership
  rw [requiredImports, List.foldl_append, List.foldl_cons]
  refine List.foldlRecOn (motive := fun required : RequiredImports => required.Cover catalog tag)
    after _ (RequiredImports.cover_add_self catalog _ tag) ?_
  intro required covers other _
  exact covers.add other

end Catalog

end ScreenCompiler
