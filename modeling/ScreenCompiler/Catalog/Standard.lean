import ScreenCompiler.Catalog.Basic

/-!
# Standard catalog

The mobile components that every project starts with, their short tags, the
packages of the usual add-on components, and the vocabulary of hints.
-/

namespace ScreenCompiler.Catalog

namespace Standard

/-- Components whose tag is their own name. -/
def ownNames : List String :=
  ["View", "Text", "Image", "ScrollView", "FlatList", "TextInput", "TouchableOpacity", "Switch",
   "ActivityIndicator", "Modal", "SafeAreaView", "Pressable"]

/-- Short tags and the components they stand for. -/
def aliases : List (String × String) :=
  [("Button", "TouchableOpacity"), ("Stack", "View"), ("Scroll", "ScrollView"),
   ("List", "FlatList"), ("Input", "TextInput"), ("Loading", "ActivityIndicator"),
   ("Safe", "SafeAreaView")]

def coreComponents : List String :=
  ["View", "Text", "Image", "ScrollView", "FlatList", "TextInput", "TouchableOpacity", "Switch",
   "Button", "ActivityIndicator", "Modal", "SafeAreaView", "Pressable"]

def packageComponents : List (String × PackageComponent) :=
  [("NavigationContainer", ⟨"@react-navigation/native", "NavigationContainer", .named⟩),
   ("LinearGradient", ⟨"expo-linear-gradient", "LinearGradient", .named⟩),
   ("Camera", ⟨"expo-camera", "Camera", .named⟩),
   ("MapView", ⟨"react-native-maps", "MapView", .default⟩),
   ("Icon", ⟨"react-native-vector-icons/Ionicons", "Icon", .default⟩),
   ("Ionicons", ⟨"@expo/vector-icons", "Ionicons", .named⟩),
   ("FAB", ⟨"react-native-paper", "FAB", .named⟩),
   ("Card", ⟨"react-native-paper", "Card", .named⟩),
   ("PanGestureHandler", ⟨"react-native-gesture-handler", "PanGestureHandler", .named⟩),
   ("TapGestureHandler", ⟨"react-native-gesture-handler", "TapGestureHandler", .named⟩)]

def componentProps : List (String × List String) :=
  [("View",
     ["onPress", "onLongPress", "onLayout"]),
   ("Text",
     ["numberOfLines", "ellipsizeMode", "selectable"]),
   ("TextInput",
     ["value", "onChangeText", "placeholder", "secureTextEntry", "keyboardType",
      "autoCapitalize", "autoCorrect", "multiline", "maxLength", "editable", "onFocus", "onBlur",
      "onSubmit", "bind"]),
   ("TouchableOpacity",
     ["onPress", "onLongPress", "disabled", "activeOpacity"]),
   ("Image",
     ["source", "resizeMode", "onLoad", "onError", "fadeDuration", "progressiveRenderingEnabled"]),
   ("FlatList",
     ["data", "renderItem", "keyExtractor", "onRefresh", "refreshing", "onEndReached",
      "onEndReachedThreshold"]),
   ("Switch",
     ["value", "onValueChange", "bind", "disabled"]),
   ("*",
     ["style", "testID", "accessibilityLabel", "accessibilityHint", "accessible", "onPress",
      "onLongPress", "children"])]

/-- Shorthands for styles, valid on every component. -/
def styleProps : List String :=
  ["flex", "flexGrow", "flexShrink", "flexBasis", "row", "col", "wrap", "nowrap", "center",
   "start", "end", "between", "around", "full", "half", "third", "quarter", "p", "px", "py",
   "pt", "pr", "pb", "pl", "m", "mx", "my", "mt", "mr", "mb", "ml", "gap", "gapX", "gapY", "w",
   "h", "minW", "minH", "maxW", "maxH", "aspectRatio", "absolute", "relative", "top", "right",
   "bottom", "left", "zIndex", "bg", "bgImage", "bgSize", "bgPosition", "border", "borderTop",
   "borderRight", "borderBottom", "borderLeft", "borderColor", "borderWidth", "borderStyle",
   "rounded", "roundedTop", "roundedRight", "roundedBottom", "roundedLeft", "shadow",
   "shadowColor", "shadowOffset", "shadowOpacity", "shadowRadius", "elevation", "font",
   "fontSize", "fontWeight", "fontStyle", "color", "textAlign", "textTransform", "lineHeight",
   "letterSpacing", "scale", "rotate", "translateX", "translateY", "opacity", "overflow",
   "overflowX", "overflowY", "display", "hidden", "animated", "duration", "delay", "easing"]

def keyboardTypes : List String :=
  ["default", "email-address", "numeric", "phone-pad", "number-pad", "decimal-pad",
   "visible-password", "ascii-capable", "numbers-and-punctuation", "url", "name-phone-pad",
   "twitter", "web-search"]

end Standard

/-- The catalog of a project that configures none. -/
def standard : Catalog where
  components := Standard.ownNames.map (fun name => (name, name)) ++ Standard.aliases
  coreComponents := Standard.coreComponents
  packageComponents := Standard.packageComponents
  componentProps := Standard.componentProps
  styleProps := Standard.styleProps
  buttonTags := ["Button"]
  textTags := ["Text"]
  toggleTags := ["Switch"]
  textInputTags := ["Input", "TextInput"]
  imageTags := ["Image"]
  keyboardTypes := Standard.keyboardTypes
  capitalizations := ["none", "sentences", "words", "characters"]
  booleanHints := ["is", "has", "show", "enabled", "Mode", "Enabled", "Services"]
  numericHints := ["count", "interval"]

end ScreenCompiler.Catalog
