import ScreenCompiler.Route.Name
import ScreenCompiler.Route.Order
import ScreenCompiler.Script.Quoted

/-!
# Router module

The navigation module of a project: a stack of all screens, in which the tab screens
sit together behind one entry.
-/

namespace ScreenCompiler

open Script

namespace Router

def fileName : String := "router.js"

/-- The icon of a tab without one. -/
def defaultIcon : String := "ellipse"

def title (route : Route) : String :=
  route.options.title.getD (RoutePath.displayName route.componentName)

/-- The entry of a screen.  It is registered under its full component name. -/
def screenLines (navigator : String) (route : Route) : List String :=
  ["      <" ++ navigator ++ ".Screen",
    "        name=\"" ++ route.componentName ++ "\"",
    "        component=\x7b" ++ route.componentName ++ "\x7d",
    "        options=\x7b\x7b title: " ++ quote (title route) ++ ", headerShown: " ++
      toString route.options.headerShown ++ " \x7d\x7d",
    "      />"]

def importLine (route : Route) : String :=
  "import " ++ route.componentName ++ " from " ++ quote ("./screens/" ++ route.modulePath) ++ ";"

def iconLine (route : Route) : String :=
  "  " ++ route.componentName ++ ": " ++ quote (route.options.tabIcon.getD defaultIcon) ++ ","

/-- Lines that stand only in a router with tabs. -/
def onlyWithTabs (tabs : List Route) (lines : List String) : List String :=
  if tabs.isEmpty then [] else lines

def libraryLines (tabs : List Route) : List String :=
  ["import React from 'react';"] ++
  onlyWithTabs tabs
    ["import \x7b createBottomTabNavigator \x7d from '@react-navigation/bottom-tabs';"] ++
  ["import \x7b createStackNavigator \x7d from '@react-navigation/stack';"] ++
  onlyWithTabs tabs ["import \x7b Ionicons \x7d from '@expo/vector-icons';"] ++
  [""]

def screenImports (routes : List Route) : List String :=
  routes.map importLine ++ (if routes.isEmpty then [] else [""])

def navigatorLines (tabs : List Route) : List String :=
  onlyWithTabs tabs ["const Tab = createBottomTabNavigator();"] ++
  ["const Stack = createStackNavigator();", ""]

def iconTable (tabs : List Route) : List String :=
  ["const TAB_ICONS = \x7b"] ++ tabs.map iconLine ++ ["\x7d;", ""]

def tabNavigator (tabs : List Route) : List String :=
  ["function TabNavigator() \x7b",
    "  return (",
    "    <Tab.Navigator",
    "      screenOptions=\x7b(\x7b route \x7d) => (\x7b",
    "        tabBarIcon: (\x7b focused, color, size \x7d) => \x7b",
    "          const iconName = TAB_ICONS[route.name] || '" ++ defaultIcon ++ "';",
    "          return <Ionicons name=\x7bfocused ? iconName : \x60$\x7biconName\x7d-outline\x60\x7d size=\x7bsize\x7d color=\x7bcolor\x7d />;",
    "        \x7d,",
    "        tabBarActiveTintColor: '#007AFF',",
    "        tabBarInactiveTintColor: 'gray',",
    "        headerShown: false,",
    "      \x7d)\x7d",
    "    >"] ++
  tabs.flatMap (screenLines "Tab") ++
  ["    </Tab.Navigator>",
    "  );",
    "\x7d",
    ""]

/-- The stack entry behind which the tabs sit. -/
def mainTabsLine : String :=
  "      <Stack.Screen name=\"MainTabs\" component=\x7bTabNavigator\x7d />"

def stackNavigator (tabs stack : List Route) : List String :=
  ["export default function Router() \x7b",
    "  return (",
    "    <Stack.Navigator screenOptions=\x7b\x7b headerShown: false \x7d\x7d>"] ++
  onlyWithTabs tabs [mainTabsLine] ++
  stack.flatMap (screenLines "Stack") ++
  ["    </Stack.Navigator>",
    "  );",
    "\x7d"]

/-- The lines of the router of sorted routes. -/
def linesOf (routes : List Route) : List String :=
  let tabs := routes.filter Route.isTab
  let stack := routes.filter fun route => !route.isTab
  libraryLines tabs ++ screenImports routes ++ navigatorLines tabs ++
    onlyWithTabs tabs (iconTable tabs ++ tabNavigator tabs) ++ stackNavigator tabs stack

/-- The router of a route table. -/
def generate (routes : List Route) : String :=
  String.join ((linesOf (Route.sorted routes)).map (· ++ "\n"))

end Router

end ScreenCompiler
