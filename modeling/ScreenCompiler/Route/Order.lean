import ScreenCompiler.Route.Basic

/-!
# Order of routes

Tab screens come first, by their order and then by path; a tab without an order
counts as the last.  The other screens follow by path.  Ties are settled by the
component name.
-/

namespace ScreenCompiler

namespace Route

def isTab (route : Route) : Bool :=
  route.options.isTabScreen

/-- The order of a tab without one: the greatest of 64 signed bits. -/
def lastTabOrder : Int := Decimal.signedBound - 1

def tabOrder (route : Route) : Int :=
  route.options.tabOrder.getD lastTabOrder

/-- Where a route stands among tabs; all other routes stand together. -/
def rank (route : Route) : Int :=
  if route.isTab then route.tabOrder else 0

def compare (first second : Route) : Ordering :=
  (Ord.compare second.isTab first.isTab).then <|
    (Ord.compare first.rank second.rank).then <|
      (Ord.compare first.logicalPath second.logicalPath).then
        (Ord.compare first.componentName second.componentName)

/-- Whether a route may stand before another. -/
def precedes (first second : Route) : Bool :=
  first.compare second != .gt

/-- The routes in order; routes that compare equal keep theirs. -/
def sorted (routes : List Route) : List Route :=
  routes.mergeSort precedes

theorem sorted_perm (routes : List Route) : (sorted routes).Perm routes :=
  List.mergeSort_perm routes precedes

end Route

end ScreenCompiler
