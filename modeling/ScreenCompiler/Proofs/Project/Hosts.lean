import ScreenCompiler.Project.Host
import ScreenCompiler.Proofs.Project.Components

/-!
# Where paths lead on a host

The parts of a path lead on from where those before them have led, and trivial parts
lead nowhere else.  So a path leads where its steps lead: what the components of a path
begin with is a path on its way.  Names lead along themselves where no links are; they
do so from the root when nothing on the way is a link.
-/

namespace ScreenCompiler

namespace Host

/-- The parts of a path lead from a place to another one, and leave some links. -/
inductive Leads (host : Host) : Nat → Place → List (List Char) → Nat × Place → Prop where
  | here (more place) : Leads host more place [] (more, place)
  | trivial {more place part parts target}
      (isDirectory : host.tree.entryAt? place = some .directory)
      (isTrivial : Path.isTrivial part = true) (behind : Leads host more place parts target) :
      Leads host more place (part :: parts) target
  | parent {more place parts target}
      (isDirectory : host.tree.entryAt? place = some .directory)
      (behind : Leads host more place.dropLast parts target) :
      Leads host more place (['.', '.'] :: parts) target
  | name {more place part parts target}
      (isDirectory : host.tree.entryAt? place = some .directory)
      (solid : Path.isTrivial part = false) (notParent : part ≠ ['.', '.'])
      (noLink : host.links.lookup (place ++ [part]) = none)
      (behind : Leads host more (place ++ [part]) parts target) :
      Leads host more place (part :: parts) target
  | link {more place part parts target link}
      (isDirectory : host.tree.entryAt? place = some .directory)
      (solid : Path.isTrivial part = false) (notParent : part ≠ ['.', '.'])
      (isLink : host.links.lookup (place ++ [part]) = some link)
      (behind : Leads host more (startFrom place link) (link.parts ++ parts) target) :
      Leads host (more + 1) place (part :: parts) target

variable {host : Host} {more : Nat} {place : Place} {part : List Char}
  {parts first second names : List (List Char)} {target middle : Nat × Place}

theorem resolveFrom_of_leads (leads : host.Leads more place parts target) :
    host.resolveFrom more place parts = some target := by
  induction leads with
  | here more place => cases more <;> rfl
  | @trivial more place part parts target isDirectory isTrivial behind inductionHypothesis =>
      cases more <;> simpa [resolveFrom, walk, isDirectory, isTrivial] using inductionHypothesis
  | @parent more place parts target isDirectory behind inductionHypothesis =>
      have solid : Path.isTrivial ['.', '.'] = false := by decide
      cases more <;> simpa [resolveFrom, walk, isDirectory, solid] using inductionHypothesis
  | @name more place part parts target isDirectory solid notParent noLink behind
      inductionHypothesis =>
      cases more <;>
        simpa [resolveFrom, walk, isDirectory, solid, notParent, noLink] using inductionHypothesis
  | link isDirectory solid notParent isLink behind inductionHypothesis =>
      simpa [resolveFrom, walk, isDirectory, solid, notParent, isLink] using inductionHypothesis

theorem leads_of_walk {enter : Place → Path → List (List Char) → Option (Nat × Place)}
    (enters : ∀ place link parts part, host.tree.entryAt? place = some .directory →
      Path.isTrivial part = false → part ≠ ['.', '.'] →
      host.links.lookup (place ++ [part]) = some link → enter place link parts = some target →
      host.Leads more place (part :: parts) target)
    (found : host.walk enter more place parts = some target) :
    host.Leads more place parts target := by
  induction parts generalizing place with
  | nil =>
      rw [walk, Option.some.injEq] at found
      exact found ▸ .here more place
  | cons part parts inductionHypothesis =>
      rw [walk] at found
      split at found
      · rename_i isDirectory
        split at found
        · rename_i isTrivial
          exact .trivial isDirectory isTrivial (inductionHypothesis found)
        · rename_i solid
          have solid := Bool.not_eq_true _ ▸ solid
          split at found
          · rename_i isParent
            exact isParent ▸ .parent isDirectory (inductionHypothesis found)
          · rename_i notParent
            cases stands : host.links.lookup (place ++ [part]) with
            | none =>
                rw [stands] at found
                exact .name isDirectory solid notParent stands (inductionHypothesis found)
            | some link =>
                rw [stands] at found
                exact enters place link parts part isDirectory solid notParent stands found
      · simp at found

theorem leads_iff :
    host.Leads more place parts target ↔ host.resolveFrom more place parts = some target := by
  refine ⟨resolveFrom_of_leads, fun found => ?_⟩
  induction more generalizing place parts with
  | zero =>
      refine leads_of_walk ?_ found
      intro place link parts part _ _ _ _ found
      simp at found
  | succ more inductionHypothesis =>
      refine leads_of_walk ?_ found
      intro place link parts part isDirectory solid notParent isLink found
      exact .link isDirectory solid notParent isLink (inductionHypothesis found)

namespace Leads

theorem unique {other : Nat × Place} (leads : host.Leads more place parts target)
    (leadsOther : host.Leads more place parts other) : target = other :=
  Option.some.inj ((leads_iff.mp leads).symm.trans (leads_iff.mp leadsOther))

theorem directory (leads : host.Leads more place parts target) (nonempty : parts ≠ []) :
    host.tree.entryAt? place = some .directory := by
  cases leads with
  | here => simp at nonempty
  | trivial isDirectory => exact isDirectory
  | parent isDirectory => exact isDirectory
  | name isDirectory => exact isDirectory
  | link isDirectory => exact isDirectory

theorem append (leads : host.Leads more place first middle)
    (behind : host.Leads middle.1 middle.2 second target) :
    host.Leads more place (first ++ second) target := by
  induction leads with
  | here => exact behind
  | trivial isDirectory isTrivial _ inductionHypothesis =>
      exact .trivial isDirectory isTrivial (inductionHypothesis behind)
  | parent isDirectory _ inductionHypothesis =>
      exact .parent isDirectory (inductionHypothesis behind)
  | name isDirectory solid notParent noLink _ inductionHypothesis =>
      exact .name isDirectory solid notParent noLink (inductionHypothesis behind)
  | link isDirectory solid notParent isLink _ inductionHypothesis =>
      have whole := inductionHypothesis behind
      rw [List.append_assoc] at whole
      exact .link isDirectory solid notParent isLink whole

theorem exists_of_append (leads : host.Leads more place (first ++ second) target) :
    ∃ middle : Nat × Place, host.Leads more place first middle ∧
      host.Leads middle.1 middle.2 second target := by
  generalize whole : first ++ second = parts at leads
  induction leads generalizing first with
  | here more place =>
      obtain ⟨rfl, rfl⟩ := List.append_eq_nil_iff.mp whole
      exact ⟨_, .here more place, .here more place⟩
  | @trivial more place part parts target isDirectory isTrivial behind inductionHypothesis =>
      rcases List.append_eq_cons_iff.mp whole with ⟨rfl, rfl⟩ | ⟨rest, rfl, rfl⟩
      · exact ⟨_, .here more place, .trivial isDirectory isTrivial behind⟩
      · obtain ⟨middle, before, later⟩ := inductionHypothesis rfl
        exact ⟨middle, .trivial isDirectory isTrivial before, later⟩
  | @parent more place parts target isDirectory behind inductionHypothesis =>
      rcases List.append_eq_cons_iff.mp whole with ⟨rfl, rfl⟩ | ⟨rest, rfl, rfl⟩
      · exact ⟨_, .here more place, .parent isDirectory behind⟩
      · obtain ⟨middle, before, later⟩ := inductionHypothesis rfl
        exact ⟨middle, .parent isDirectory before, later⟩
  | @name more place part parts target isDirectory solid notParent noLink behind
      inductionHypothesis =>
      rcases List.append_eq_cons_iff.mp whole with ⟨rfl, rfl⟩ | ⟨rest, rfl, rfl⟩
      · exact ⟨_, .here more place, .name isDirectory solid notParent noLink behind⟩
      · obtain ⟨middle, before, later⟩ := inductionHypothesis rfl
        exact ⟨middle, .name isDirectory solid notParent noLink before, later⟩
  | @link more place part parts target link isDirectory solid notParent isLink behind
      inductionHypothesis =>
      rcases List.append_eq_cons_iff.mp whole with ⟨rfl, rfl⟩ | ⟨rest, rfl, rfl⟩
      · exact ⟨_, .here _ place, .link isDirectory solid notParent isLink behind⟩
      · obtain ⟨middle, before, later⟩ := inductionHypothesis (List.append_assoc _ rest second)
        exact ⟨middle, .link isDirectory solid notParent isLink before, later⟩

theorem of_trivial (leads : host.Leads more place (part :: parts) target)
    (isTrivial : Path.isTrivial part = true) : host.Leads more place parts target := by
  cases leads with
  | trivial _ _ behind => exact behind
  | parent => exact absurd isTrivial (by decide)
  | name _ solid => simp [solid] at isTrivial
  | link _ solid => simp [solid] at isTrivial

theorem steps (leads : host.Leads more place parts target) :
    host.Leads more place (parts.filter (!Path.isTrivial ·)) target := by
  induction parts generalizing more place with
  | nil => exact leads
  | cons part parts inductionHypothesis =>
      cases trivial : Path.isTrivial part with
      | true => simpa [trivial] using inductionHypothesis (leads.of_trivial trivial)
      | false =>
          rw [← List.singleton_append] at leads
          obtain ⟨middle, next, behind⟩ := leads.exists_of_append
          rw [List.filter_cons_of_pos (by simp [trivial]), ← List.singleton_append]
          exact next.append (inductionHypothesis behind)

/-- Trivial parts can be put behind a directory, but not behind a file. -/
theorem of_steps (leads : host.Leads more place (parts.filter (!Path.isTrivial ·)) target)
    (isDirectory : host.tree.entryAt? target.2 = some .directory) :
    host.Leads more place parts target := by
  induction parts generalizing more place with
  | nil => exact leads
  | cons part parts inductionHypothesis =>
      cases trivial : Path.isTrivial part with
      | true =>
          rw [List.filter_cons_of_neg (by simp [trivial])] at leads
          refine .trivial ?_ trivial (inductionHypothesis leads)
          by_cases nothing : parts.filter (!Path.isTrivial ·) = []
          · rw [nothing] at leads
            cases leads
            exact isDirectory
          · exact leads.directory nothing
      | false =>
          rw [List.filter_cons_of_pos (by simp [trivial]), ← List.singleton_append] at leads
          obtain ⟨middle, next, behind⟩ := leads.exists_of_append
          exact next.append (inductionHypothesis behind)

/-- Below a place without links, names lead along themselves. -/
theorem along (plain : ∀ link ∈ host.links, ¬place <+: link.1)
    (named : ∀ name ∈ names, Path.IsName name) (leads : host.Leads more place names target) :
    target = (more, place ++ names) := by
  induction names generalizing place with
  | nil =>
      cases leads
      simp
  | cons name names inductionHypothesis =>
      obtain ⟨isName, later⟩ := List.forall_mem_cons.mp named
      cases leads with
      | trivial _ isTrivial => simp [isName.isTrivial_eq] at isTrivial
      | parent => exact absurd rfl isName.notParent
      | name _ _ _ _ behind =>
          have plainBelow : ∀ link ∈ host.links, ¬place ++ [name] <+: link.1 :=
            fun link inside below => plain link inside ((List.prefix_append _ _).trans below)
          simpa using inductionHypothesis plainBelow later behind
      | link _ _ _ isLink =>
          obtain ⟨before, after, split, -⟩ := List.lookup_eq_some_iff.mp isLink
          have inside : (place ++ [name], _) ∈ host.links :=
            split ▸ List.mem_append_right before List.mem_cons_self
          exact absurd (List.prefix_append place [name]) (plain _ inside)

end Leads

/-- Nothing on the way to a place is a link. -/
def IsDirect (host : Host) (place : Place) : Prop :=
  ∀ front name behind, place = front ++ name :: behind →
    host.tree.entryAt? front = some .directory ∧ host.links.lookup (front ++ [name]) = none

namespace IsDirect

theorem nil (host : Host) : host.IsDirect [] := by
  intro front name behind split
  simp at split

theorem of_prefix {front : Place} (isDirect : host.IsDirect place) (before : front <+: place) :
    host.IsDirect front := by
  obtain ⟨rest, rfl⟩ := before
  rintro first name behind rfl
  exact isDirect first name (behind ++ rest) (by simp)

theorem concat {name : List Char} (isDirect : host.IsDirect place)
    (isDirectory : host.tree.entryAt? place = some .directory)
    (noLink : host.links.lookup (place ++ [name]) = none) : host.IsDirect (place ++ [name]) := by
  intro front next behind split
  rcases List.eq_nil_or_concat' behind with rfl | ⟨others, last, rfl⟩
  · obtain ⟨rfl, same⟩ := List.append_inj' split rfl
    obtain rfl := List.singleton_inj.mp same
    exact ⟨isDirectory, noLink⟩
  · rw [← List.cons_append, ← List.append_assoc] at split
    exact isDirect front next others (List.append_inj' split rfl).1

theorem startFrom (isDirect : host.IsDirect place) (path : Path) :
    host.IsDirect (startFrom place path) := by
  rw [Host.startFrom]
  split
  · exact .nil host
  · exact isDirect

theorem of_leads (isDirect : host.IsDirect place) (leads : host.Leads more place parts target) :
    host.IsDirect target.2 := by
  induction leads with
  | here => exact isDirect
  | trivial _ _ _ inductionHypothesis => exact inductionHypothesis isDirect
  | parent _ _ inductionHypothesis =>
      exact inductionHypothesis (isDirect.of_prefix (List.dropLast_prefix _))
  | name isDirectory _ _ noLink _ inductionHypothesis =>
      exact inductionHypothesis (isDirect.concat isDirectory noLink)
  | @link _ _ _ _ _ link _ _ _ _ _ inductionHypothesis =>
      exact inductionHypothesis (isDirect.startFrom link)

/-- Names on the way to a direct place lead along themselves. -/
theorem leads (isDirect : host.IsDirect (place ++ names))
    (named : ∀ name ∈ names, Path.IsName name) (more : Nat) :
    host.Leads more place names (more, place ++ names) := by
  induction names generalizing place with
  | nil => simpa using Leads.here more place
  | cons name names inductionHypothesis =>
      obtain ⟨isName, later⟩ := List.forall_mem_cons.mp named
      obtain ⟨isDirectory, noLink⟩ := isDirect place name names rfl
      have behind : host.IsDirect (place ++ [name] ++ names) := by simpa using isDirect
      simpa using Leads.name isDirectory isName.isTrivial_eq isName.notParent noLink
        (inductionHypothesis behind later)

end IsDirect

variable {path front : Path} {entry : FileEntry}

theorem place?_eq_some_iff : host.place? path = some place ↔
    path.text ≠ [] ∧ ∃ start more, host.start? path = some start ∧
      host.Leads maxLinks start path.parts (more, place) := by
  simp only [leads_iff, place?]
  split
  · simp_all
  · simp_all [Option.bind_eq_some_iff]

theorem find?_eq_some_iff : host.find? path = some (place, entry) ↔
    host.place? path = some place ∧ host.tree.entryAt? place = some entry := by
  simp only [find?, Option.bind_eq_some_iff, Option.map_eq_some_iff, Prod.mk.injEq]
  constructor
  · rintro ⟨_, isPlace, _, isEntry, rfl, rfl⟩
    exact ⟨isPlace, isEntry⟩
  · rintro ⟨isPlace, isEntry⟩
    exact ⟨place, isPlace, entry, isEntry, rfl, rfl⟩

theorem isDirect_of_start? {start : Place} (starts : host.start? path = some start) :
    host.IsDirect start := by
  rw [start?] at starts
  split at starts
  · exact Option.some.inj starts ▸ .nil host
  · obtain ⟨⟨more, working⟩, isWorking, rfl⟩ := Option.map_eq_some_iff.mp starts
    exact (IsDirect.nil host).of_leads (leads_iff.mpr isWorking)

/-- Where a path leads, nothing is a link any more. -/
theorem isDirect_of_place? (found : host.place? path = some place) : host.IsDirect place := by
  obtain ⟨-, start, more, starts, leads⟩ := place?_eq_some_iff.mp found
  exact (isDirect_of_start? starts).of_leads leads

/-- What the components of a path begin with is on its way. -/
theorem on_way (split : path.components = front.components ++ names.map .name)
    (found : host.place? path = some place) :
    ∃ middle more other, host.Leads more middle names (other, place) ∧
      (∀ elsewhere, host.place? front = some elsewhere → elsewhere = middle) ∧
      (names ≠ [] → front.text ≠ [] → host.find? front = some (middle, .directory)) := by
  obtain ⟨-, start, other, starts, leads⟩ := place?_eq_some_iff.mp found
  have steps : path.parts.filter (!Path.isTrivial ·) =
      front.parts.filter (!Path.isTrivial ·) ++ names := Path.steps_of_components split
  have sameStart : host.start? front = some start := by
    rw [← starts, start?, start?, Path.isAbsolute_of_components split]
  have along := leads.steps
  rw [steps] at along
  obtain ⟨⟨more, middle⟩, before, behind⟩ := along.exists_of_append
  refine ⟨middle, more, other, behind, ?same, ?there⟩
  case same =>
    intro elsewhere foundElsewhere
    obtain ⟨-, _, _, startsElsewhere, leadsElsewhere⟩ := place?_eq_some_iff.mp foundElsewhere
    obtain rfl := Option.some.inj (sameStart.symm.trans startsElsewhere)
    exact (Prod.mk.inj (leadsElsewhere.steps.unique before)).2
  case there =>
    intro nonempty solid
    have isDirectory := behind.directory nonempty
    have leadsFront := before.of_steps isDirectory
    exact find?_eq_some_iff.mpr
      ⟨place?_eq_some_iff.mpr ⟨solid, start, more, sameStart, leadsFront⟩, isDirectory⟩

/-- Names from the root on lead to a direct place when they are those on the way to it. -/
theorem place_of_components (named : ∀ name ∈ names, Path.IsName name)
    (isDirect : host.IsDirect names) (split : path.components = .root :: names.map .name)
    (found : host.place? path = some place) : place = names := by
  have isAbsolute : path.isAbsolute = true := Path.isAbsolute_iff.mpr ⟨_, split⟩
  have fromRoot : path.components = (Path.mk ['/']).components ++ names.map .name := split
  have steps : path.parts.filter (!Path.isTrivial ·) = [] ++ names :=
    Path.steps_of_components fromRoot
  obtain ⟨-, start, more, starts, leads⟩ := place?_eq_some_iff.mp found
  rw [start?, if_pos isAbsolute, Option.some.injEq] at starts
  subst starts
  have along := leads.steps
  rw [steps, List.nil_append] at along
  have direct : host.Leads maxLinks [] names (maxLinks, [] ++ names) :=
    IsDirect.leads isDirect named maxLinks
  exact (Prod.mk.inj (along.unique direct)).2

/-- What the direct path of a place begins with is the direct path of a place on the way. -/
theorem exists_of_front (named : ∀ name ∈ names, Path.IsName name)
    (isDirect : host.IsDirect names) (nonempty : front.text ≠ [])
    (before : front.components <+: (FileTree.pathOf names).components) :
    ∃ first last, names = first ++ last ∧ front.components = .root :: first.map .name ∧
      ∀ place, host.place? front = some place → place = first := by
  rw [FileTree.components_pathOf named] at before
  obtain ⟨behind, whole⟩ := before
  rcases List.append_eq_cons_iff.mp whole with ⟨isEmpty, -⟩ | ⟨rest, isFront, whole⟩
  · exact absurd isEmpty (Path.components_ne_nil nonempty)
  · obtain ⟨first, last, rfl, rfl, -⟩ := List.map_eq_append_iff.mp whole
    refine ⟨first, last, rfl, isFront, fun place found => ?_⟩
    exact place_of_components (List.forall_mem_append.mp named).1
      (isDirect.of_prefix (List.prefix_append _ _)) isFront found

theorem resolveFrom_ofTree (tree : FileTree) (more : Nat) (place : Place)
    (parts : List (List Char)) :
    (ofTree tree).resolveFrom more place parts =
      (tree.resolveFrom place parts).toOption.map (more, ·) := by
  have walked : ∀ enter, (ofTree tree).walk enter more place parts =
      (tree.resolveFrom place parts).toOption.map (more, ·) := by
    intro enter
    induction parts generalizing place with
    | nil => rfl
    | cons part parts inductionHypothesis =>
        have sameTree : (ofTree tree).tree = tree := rfl
        have noLinks : (ofTree tree).links = [] := rfl
        rw [walk, FileTree.resolveFrom, sameTree, noLinks]
        cases tree.entryAt? place with
        | none => rfl
        | some entry =>
            cases entry with
            | file content => rfl
            | directory =>
                simp only [inductionHypothesis, List.lookup_nil]
                split
                · rfl
                · split <;> rfl
  cases more with
  | zero => exact walked _
  | succ more => exact walked _

theorem place?_ofTree (tree : FileTree) (path : Path) :
    (ofTree tree).place? path = (tree.resolve path).toOption := by
  have behind : ∀ start, ((ofTree tree).resolveFrom maxLinks start path.parts).map Prod.snd =
      (tree.resolveFrom start path.parts).toOption := by
    intro start
    rw [resolveFrom_ofTree, Option.map_map]
    exact congrFun Option.map_id _
  rw [place?, FileTree.resolve]
  split
  · rfl
  simp only [start?, FileTree.reach, FileTree.start, behind]
  split
  · rfl
  · have nonempty : path.parts ≠ [] := RoutePath.segments_ne_nil path.text
    have working : (ofTree tree).workingPlace? =
        (tree.resolveFrom [] tree.working.parts).toOption := by
      have sameTree : (ofTree tree).tree = tree := rfl
      rw [workingPlace?, sameTree, resolveFrom_ofTree, Option.map_map]
      exact congrFun Option.map_id _
    rw [← FileTree.resolveFrom_append, List.append_assoc, FileTree.resolveFrom_append,
      List.singleton_append, working]
    cases tree.resolveFrom [] tree.working.parts with
    | error error => rfl
    | ok start => exact congrArg Except.toOption (FileTree.resolveFrom_nil_cons nonempty).symm

theorem find?_ofTree (tree : FileTree) (path : Path) :
    (ofTree tree).find? path = (tree.find path).toOption := by
  rw [find?, place?_ofTree, FileTree.find]
  cases tree.resolve path with
  | error error => rfl
  | ok place =>
      change (tree.entryAt? place).map _ = _
      cases there : tree.entryAt? place <;> simp [there, Except.toOption]

/-- What a host lists for a tree without links is what a pass lists. -/
theorem list?_ofTree (tree : FileTree) (directory : Path) (ending : String)
    (ignored : List String) :
    (ofTree tree).list? directory ending ignored =
      (Sources.list tree directory ending ignored).toOption := by
  rw [list?, find?_ofTree, Sources.list]
  cases tree.find directory with
  | error error => rfl
  | ok found =>
      obtain ⟨place, entry⟩ := found
      cases entry <;> rfl

end Host

end ScreenCompiler
