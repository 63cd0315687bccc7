import Mathlib.Data.List.Nodup
import Mathlib.Data.String.Basic
import Mathlib.Order.Defs.LinearOrder
import Mathlib.Tactic.Order
import ScreenCompiler.Route.Router

/-!
# The order of a route table

Comparing routes is a total preorder that tells routes of different names apart, so a
route table has one sorted form in whatever order its screens were found.  Sorting puts
tabs first.  Among tabs a missing order counts as the greatest of 64 bits: it comes
behind every other order, and stands by its path beside that one.
-/

namespace ScreenCompiler

namespace Route

variable {first second third : Route}

/-- Four keys decide one after the other, the first of them in reverse. -/
theorem compare_eq_lex : Route.compare =
    compareLex (fun first second => compareOn isTab second first)
      (compareLex (compareOn rank)
        (compareLex (compareOn logicalPath) (compareOn componentName))) :=
  rfl

instance : Std.TransCmp Route.compare := by
  rw [compare_eq_lex]
  infer_instance

/-- Only the first of two routes is asked whether it is a tab before the orders are compared: they
are both tabs then, or neither is. -/
theorem compare_eq_of_first (first second : Route) : first.compare second =
    (Ord.compare second.isTab first.isTab).then
      ((if first.isTab then Ord.compare first.tabOrder second.tabOrder else .eq).then
        ((Ord.compare first.logicalPath second.logicalPath).then
          (Ord.compare first.componentName second.componentName))) := by
  unfold Route.compare rank
  cases first.isTab <;> cases second.isTab <;> rfl

theorem compare_eq_eq : first.compare second = .eq ↔
    first.isTab = second.isTab ∧ first.rank = second.rank ∧
      first.logicalPath = second.logicalPath ∧ first.componentName = second.componentName := by
  unfold Route.compare
  simp only [Ordering.then_eq_eq, Std.compare_eq_iff_eq, eq_comm (a := second.isTab)]

theorem precedes_eq_isLE (first second : Route) :
    first.precedes second = (first.compare second).isLE := by
  unfold precedes
  cases first.compare second <;> rfl

theorem precedes_trans (before : first.precedes second = true)
    (behind : second.precedes third = true) : first.precedes third = true := by
  rw [precedes_eq_isLE] at *
  exact Std.TransCmp.isLE_trans before behind

theorem precedes_total (first second : Route) :
    (first.precedes second || second.precedes first) = true := by
  rw [precedes_eq_isLE, precedes_eq_isLE, @Std.OrientedCmp.eq_swap _ Route.compare]
  cases second.compare first <;> rfl

theorem compare_eq_of_precedes (before : first.precedes second = true)
    (behind : second.precedes first = true) : first.compare second = .eq := by
  rw [precedes_eq_isLE] at *
  exact Std.OrientedCmp.isLE_antisymm before behind

theorem pairwise_precedes_sorted (routes : List Route) :
    (sorted routes).Pairwise fun first second => first.precedes second = true :=
  @List.pairwise_mergeSort _ precedes (fun _ _ _ => precedes_trans) precedes_total routes

theorem sorted_eq_self {routes : List Route}
    (inOrder : routes.Pairwise fun first second => first.precedes second = true) :
    sorted routes = routes :=
  List.mergeSort_of_pairwise inOrder

theorem sorted_eq_of_perm {routes others : List Route} (permuted : routes.Perm others)
    (distinct : (routes.map componentName).Nodup) : sorted routes = sorted others := by
  refine List.Perm.eq_of_pairwise ?_ (pairwise_precedes_sorted routes)
    (pairwise_precedes_sorted others)
    ((sorted_perm routes).trans (permuted.trans (sorted_perm others).symm))
  intro first second inSorted inOthers before behind
  have isRoute := (sorted_perm routes).mem_iff.mp inSorted
  have isOther := permuted.mem_iff.mpr ((sorted_perm others).mem_iff.mp inOthers)
  obtain ⟨-, -, -, sameName⟩ := compare_eq_eq.mp (compare_eq_of_precedes before behind)
  exact List.inj_on_of_nodup_map distinct isRoute isOther sameName

/-- Sorting keeps routes that compare equal as they stand. -/
theorem filter_sorted (route : Route) (routes : List Route) :
    (sorted routes).filter (route.compare · == .eq) = routes.filter (route.compare · == .eq) := by
  have alike : (routes.filter (route.compare · == .eq)).Pairwise
      fun first second => first.precedes second = true := by
    refine List.pairwise_of_forall_mem_list fun first isFirst second isSecond => ?_
    have firstAlike := (List.mem_filter.mp isFirst).2
    have secondAlike := (List.mem_filter.mp isSecond).2
    rw [beq_iff_eq] at firstAlike secondAlike
    rw [precedes_eq_isLE, ← Std.TransCmp.congr_left firstAlike, secondAlike]
    rfl
  have kept : (routes.filter (route.compare · == .eq)).Sublist (sorted routes) :=
    @List.sublist_mergeSort _ precedes _ (fun _ _ _ => precedes_trans) precedes_total _ alike
      List.filter_sublist
  have within := kept.filter (route.compare · == .eq)
  rw [List.filter_filter] at within
  simp only [Bool.and_self] at within
  exact (within.eq_of_length ((sorted_perm routes).filter _).length_eq.symm).symm

/-- The order in which screens are found does not show in the router: tables that are permutations
of each other have one sorted form and one router if no two screens have one name.  Sorting is a
permutation that changes nothing when done again, and it follows a total preorder in which only
routes with the same place, path and name are alike. -/
theorem sorted_generate_of_perm {routes others : List Route} (permuted : routes.Perm others)
    (distinct : (routes.map componentName).Nodup) :
    (sorted routes = sorted others ∧ Router.generate routes = Router.generate others) ∧
      (∀ table : List Route, (sorted table).Perm table ∧ sorted (sorted table) = sorted table) ∧
      (∀ first second : Route, first.compare second = (second.compare first).swap) ∧
      (∀ first second : Route, first.precedes second = true ∨ second.precedes first = true) ∧
      (∀ first second third : Route, first.precedes second = true →
        second.precedes third = true → first.precedes third = true) ∧
      (∀ first second : Route, first.compare second = .eq → first.isTab = second.isTab ∧
        first.logicalPath = second.logicalPath ∧ first.componentName = second.componentName) := by
  have same := sorted_eq_of_perm permuted distinct
  refine ⟨⟨same, ?_⟩, ?_, ?_, ?_, ?_, ?_⟩
  · rw [Router.generate, Router.generate, same]
  · exact fun table => ⟨sorted_perm table, sorted_eq_self (pairwise_precedes_sorted table)⟩
  · exact fun first second => Std.OrientedCmp.eq_swap
  · exact fun first second => (Bool.or_eq_true _ _).mp (precedes_total first second)
  · exact fun first second third => precedes_trans
  · intro first second alike
    obtain ⟨place, -, path, name⟩ := compare_eq_eq.mp alike
    exact ⟨place, path, name⟩

/-- A screen among the tabs. -/
def tab (path name : String) (order : Option Int) : Route where
  logicalPath := path
  componentName := name
  sourceFile := "(tabs)/" ++ path ++ ".ignite"
  modulePath := "(tabs)/" ++ path
  options := { Screen.standard.options with isTabScreen := true, tabOrder := order }

/-- A screen on the stack. -/
def stackScreen (path name : String) : Route where
  logicalPath := path
  componentName := name
  sourceFile := path ++ ".ignite"
  modulePath := path
  options := Screen.standard.options

/-- Tabs with and without an order, and screens beside them. -/
def mixedRoutes : List Route :=
  [stackScreen "zeta" "Zeta", tab "profile" "Profile" none, stackScreen "alpha" "Alpha",
    tab "feed" "Feed" (some 2), tab "home" "Home" (some 2), tab "about" "About" none]

theorem sorted_generate_of_perm_mixedRoutes :
    mixedRoutes.Perm mixedRoutes.reverse ∧ (mixedRoutes.map componentName).Nodup ∧
      sorted mixedRoutes = sorted mixedRoutes.reverse ∧
      Router.generate mixedRoutes = Router.generate mixedRoutes.reverse := by
  have permuted : mixedRoutes.Perm mixedRoutes.reverse := (List.reverse_perm mixedRoutes).symm
  have distinct : (mixedRoutes.map componentName).Nodup := by decide +kernel
  exact ⟨permuted, distinct, (sorted_generate_of_perm permuted distinct).1⟩

/-- Routes with one place in the order stand by their path, and those of one path by their name. -/
def ByPath (first second : Route) : Prop :=
  first.logicalPath < second.logicalPath ∨
    first.logicalPath = second.logicalPath ∧ first.componentName ≤ second.componentName

theorem precedes_iff : first.precedes second = true ↔
    (first.isTab = true ∧ second.isTab = false) ∨ first.isTab = second.isTab ∧
      (first.rank < second.rank ∨ first.rank = second.rank ∧ ByPath first second) := by
  rw [precedes_eq_isLE, Route.compare, Ordering.isLE_then_iff_or, Ordering.isLE_then_iff_or,
    Ordering.isLE_then_iff_or]
  simp only [compare_lt_iff_lt, Std.compare_eq_iff_eq, Ordering.isLE_iff_ne_gt,
    compare_le_iff_le, Bool.lt_iff, ByPath, eq_comm (a := second.isTab) (b := first.isTab)]
  rw [and_comm (a := second.isTab = false)]

/-- Two different routes of a table stand one way or the other. -/
theorem sublist_or_sublist {routes : List Route} (isFirst : first ∈ routes)
    (isSecond : second ∈ routes) (differs : first ≠ second) :
    [first, second].Sublist routes ∨ [second, first].Sublist routes := by
  obtain ⟨before, behind, rfl⟩ := List.append_of_mem isFirst
  rcases List.mem_append.mp isSecond with isBefore | isBehind
  · right
    exact (List.singleton_sublist.mpr isBefore).append
      (List.singleton_sublist.mpr List.mem_cons_self)
  · left
    rcases List.mem_cons.mp isBehind with rfl | isBehind
    · exact absurd rfl differs
    · exact ((List.singleton_sublist.mpr isBehind).cons_cons first).trans
        (List.sublist_append_right before _)

/-- What decides which of two routes stands first: their keys, and the given table where the keys
are equal. -/
theorem pair_sublist_sorted_iff {routes : List Route} (isFirst : first ∈ routes)
    (isSecond : second ∈ routes) (differs : first ≠ second) :
    [first, second].Sublist (sorted routes) ↔ first.compare second = .lt ∨
      first.compare second = .eq ∧ [first, second].Sublist routes := by
  have inOrder := pairwise_precedes_sorted routes
  constructor
  · intro stands
    have before := List.pairwise_iff_forall_sublist.mp inOrder stands
    rw [precedes_eq_isLE, Ordering.isLE_iff_eq_lt_or_eq_eq] at before
    refine before.imp_right fun alike => ⟨alike, ?_⟩
    have within := stands.filter (first.compare · == .eq)
    rw [filter_sorted] at within
    simp only [List.filter_cons, alike, Std.ReflCmp.compare_self, beq_self_eq_true, if_true,
      List.filter_nil] at within
    exact within.trans List.filter_sublist
  · rintro (smaller | ⟨alike, stands⟩)
    · have inSorted := fun {route : Route} => (sorted_perm routes).mem_iff (a := route) |>.mpr
      refine (sublist_or_sublist (inSorted isFirst) (inSorted isSecond) differs).resolve_right ?_
      intro reversed
      have behind := List.pairwise_iff_forall_sublist.mp inOrder reversed
      rw [precedes_eq_isLE, @Std.OrientedCmp.eq_swap _ Route.compare, smaller] at behind
      exact Bool.false_ne_true behind
    · refine @List.pair_sublist_mergeSort _ precedes _ _ _ (fun _ _ _ => precedes_trans)
        precedes_total ?_ stands
      rw [precedes_eq_isLE, alike]
      rfl

/-- What a sorted table owes to the orders and paths of its routes, a missing order aside. -/
structure IsInOrder (routes : List Route) : Prop where
  tabsFirst : routes.Pairwise fun first second => second.isTab = true → first.isTab = true
  ascending : routes.Pairwise fun first second => first.isTab = true → second.isTab = true →
    ∀ order ∈ first.options.tabOrder, ∀ later ∈ second.options.tabOrder,
      order < later ∨ order = later ∧ ByPath first second
  unordered : routes.Pairwise fun first second => first.isTab = true → second.isTab = true →
    first.options.tabOrder = none → second.options.tabOrder = none → ByPath first second
  others : routes.Pairwise fun first second => first.isTab = false → second.isTab = false →
    ByPath first second

/-- Every tab with an order stands before every tab without one. -/
def MissingLast (routes : List Route) : Prop :=
  routes.Pairwise fun first second => first.isTab = true → second.isTab = true →
    second.options.tabOrder.isSome = true → first.options.tabOrder.isSome = true

theorem tabOrder_of_mem {route : Route} {order : Int} (isOrder : order ∈ route.options.tabOrder) :
    route.tabOrder = order := by
  rw [tabOrder, Option.mem_def.mp isOrder, Option.getD_some]

theorem tabOrder_of_eq_none {route : Route} (missing : route.options.tabOrder = none) :
    route.tabOrder = lastTabOrder := by
  rw [tabOrder, missing, Option.getD_none]

theorem precedes_iff_of_tabs (firstIsTab : first.isTab = true) (secondIsTab : second.isTab = true) :
    first.precedes second = true ↔ first.tabOrder < second.tabOrder ∨
      first.tabOrder = second.tabOrder ∧ ByPath first second := by
  simp [precedes_iff, rank, firstIsTab, secondIsTab]

theorem isInOrder_sorted (routes : List Route) : IsInOrder (sorted routes) := by
  have inOrder := pairwise_precedes_sorted routes
  constructor
  case tabsFirst =>
    refine inOrder.imp fun {first second} before isTab => ?_
    rcases precedes_iff.mp before with ⟨firstIsTab, -⟩ | ⟨same, -⟩
    · exact firstIsTab
    · exact same.trans isTab
  case ascending =>
    refine inOrder.imp
      fun {first second} before firstIsTab secondIsTab order isOrder later isLater => ?_
    rw [precedes_iff_of_tabs firstIsTab secondIsTab, tabOrder_of_mem isOrder,
      tabOrder_of_mem isLater] at before
    exact before
  case unordered =>
    refine inOrder.imp fun {first second} before firstIsTab secondIsTab missing alsoMissing => ?_
    rw [precedes_iff_of_tabs firstIsTab secondIsTab, tabOrder_of_eq_none missing,
      tabOrder_of_eq_none alsoMissing] at before
    exact before.elim (fun smaller => absurd smaller (lt_irrefl _)) And.right
  case others =>
    refine inOrder.imp fun {first second} before firstIsOther secondIsOther => ?_
    simpa [precedes_iff, rank, firstIsOther, secondIsOther] using before

/-- Which of two routes of one order stands first: their paths decide, then their names, and then
the table in which they are. -/
def StandsFirst (routes : List Route) (first second : Route) : Prop :=
  first.logicalPath < second.logicalPath ∨ first.logicalPath = second.logicalPath ∧
    (first.componentName < second.componentName ∨ first.componentName = second.componentName ∧
      [first, second].Sublist routes)

instance (routes : List Route) (first second : Route) :
    Decidable (StandsFirst routes first second) :=
  inferInstanceAs (Decidable (_ ∨ _ ∧ (_ ∨ _ ∧ _)))

/-- A tab without an order comes before one with an order only if that is the greatest. -/
theorem pair_sublist_sorted_iff_of_missing {routes : List Route} {missing ordered : Route}
    {order : Int} (isFirst : missing ∈ routes) (isSecond : ordered ∈ routes)
    (missingIsTab : missing.isTab = true) (orderedIsTab : ordered.isTab = true)
    (isMissing : missing.options.tabOrder = none) (isOrder : ordered.options.tabOrder = some order)
    (within : order ≤ lastTabOrder) :
    [missing, ordered].Sublist (sorted routes) ↔
      order = lastTabOrder ∧ StandsFirst routes missing ordered := by
  have differs : missing ≠ ordered := by
    rintro rfl
    simp [isMissing] at isOrder
  have keys : missing.compare ordered = (Ord.compare lastTabOrder order).then
      ((Ord.compare missing.logicalPath ordered.logicalPath).then
        (Ord.compare missing.componentName ordered.componentName)) := by
    rw [compare_eq_of_first, missingIsTab, orderedIsTab, if_pos rfl, tabOrder_of_eq_none isMissing,
      tabOrder_of_mem isOrder]
    rfl
  rw [pair_sublist_sorted_iff isFirst isSecond differs, keys]
  simp only [Ordering.then_eq_lt, Ordering.then_eq_eq, compare_lt_iff_lt, Std.compare_eq_iff_eq,
    not_lt.mpr within, false_or, StandsFirst, eq_comm (a := lastTabOrder)]
  tauto

/-- A sorted table has its routes in order, and a missing order is the last one exactly if no tab
without an order gets before a tab of the greatest order by its path or its name. -/
theorem isInOrder_and_missingLast_sorted_iff {routes : List Route}
    (within : ∀ route ∈ routes, ∀ order ∈ route.options.tabOrder, order ≤ lastTabOrder) :
    IsInOrder (sorted routes) ∧
      (MissingLast (sorted routes) ↔ ∀ missing ∈ routes, ∀ last ∈ routes,
        missing.isTab = true → missing.options.tabOrder = none →
        last.isTab = true → last.options.tabOrder = some lastTabOrder →
        ¬StandsFirst routes missing last) := by
  refine ⟨isInOrder_sorted routes, ?_⟩
  rw [MissingLast, List.pairwise_iff_forall_sublist]
  constructor
  · intro missingLast missing isFirst last isSecond missingIsTab isMissing lastIsTab isLast stands
    have pair := (pair_sublist_sorted_iff_of_missing isFirst isSecond missingIsTab lastIsTab
      isMissing isLast le_rfl).mpr ⟨rfl, stands⟩
    have hasOrder := missingLast pair missingIsTab lastIsTab (by rw [isLast]; rfl)
    rw [isMissing] at hasOrder
    exact Bool.false_ne_true hasOrder
  · intro noneFirst first second pair firstIsTab secondIsTab hasOrder
    have inTable := fun {route : Route} => (sorted_perm routes).mem_iff (a := route) |>.mp
    have isFirst := inTable (pair.subset List.mem_cons_self)
    have isSecond := inTable (pair.subset (List.mem_cons_of_mem _ List.mem_cons_self))
    obtain ⟨order, isOrder⟩ := Option.isSome_iff_exists.mp hasOrder
    by_contra noOrder
    have isMissing : first.options.tabOrder = none := by simpa using noOrder
    obtain ⟨rfl, stands⟩ := (pair_sublist_sorted_iff_of_missing isFirst isSecond firstIsTab
      secondIsTab isMissing isOrder (within second isSecond order isOrder)).mp pair
    exact noneFirst first isFirst second isSecond firstIsTab isMissing secondIsTab isOrder stands

/-- Tabs of every kind of order, the greatest included. -/
def crowdedTabs : List Route :=
  [tab "zeta" "Zeta" none, stackScreen "alpha" "Alpha", tab "feed" "Feed" (some lastTabOrder),
    tab "home" "Home" (some 2), tab "about" "About" (some (-lastTabOrder - 1))]

theorem isInOrder_and_missingLast_sorted_crowdedTabs :
    (∀ route ∈ crowdedTabs, ∀ order ∈ route.options.tabOrder, order ≤ lastTabOrder) ∧
      IsInOrder (sorted crowdedTabs) ∧ MissingLast (sorted crowdedTabs) := by
  have within : ∀ route ∈ crowdedTabs, ∀ order ∈ route.options.tabOrder,
      order ≤ lastTabOrder := by
    decide +kernel
  obtain ⟨inOrder, missingLast⟩ := isInOrder_and_missingLast_sorted_iff within
  exact ⟨within, inOrder, missingLast.mpr (by decide +kernel)⟩

/-- The tab without an order has the smaller path, so it comes before the one of the greatest
order. -/
theorem not_missingLast_sorted_greatestOrder :
    ¬MissingLast (sorted [tab "zeta" "Zeta" (some lastTabOrder), tab "about" "About" none]) := by
  intro missingLast
  have pair : [tab "about" "About" none, tab "zeta" "Zeta" (some lastTabOrder)].Sublist
      (sorted [tab "zeta" "Zeta" (some lastTabOrder), tab "about" "About" none]) :=
    (pair_sublist_sorted_iff_of_missing (by simp) (by simp) rfl rfl rfl rfl le_rfl).mpr
      ⟨rfl, .inl (by decide +kernel)⟩
  exact Bool.false_ne_true (List.pairwise_iff_forall_sublist.mp missingLast pair rfl rfl rfl)

end Route

end ScreenCompiler
