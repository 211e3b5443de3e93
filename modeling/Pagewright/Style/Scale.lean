/-!
# Scales of the utility classes

The closed tables behind the classes: keywords by property, and the scales that
give lengths, weights and colours their names. A value outside its table has no
class.
-/

set_option autoImplicit false

namespace Pagewright.Style

def keywordClasses : List (String × List (String × String)) := [
  ("display", [
    ("flex", "flex"), ("inline-flex", "inline-flex"), ("block", "block"),
    ("inline-block", "inline-block"), ("inline", "inline"), ("grid", "grid"),
    ("inline-grid", "inline-grid"), ("contents", "contents"), ("table", "table"),
    ("none", "hidden")]),
  ("position", [
    ("static", "static"), ("relative", "relative"), ("absolute", "absolute"), ("fixed", "fixed"),
    ("sticky", "sticky")]),
  ("flexDirection", [
    ("row", "flex-row"), ("row-reverse", "flex-row-reverse"), ("column", "flex-col"),
    ("column-reverse", "flex-col-reverse")]),
  ("flexWrap", [
    ("wrap", "flex-wrap"), ("nowrap", "flex-nowrap"), ("wrap-reverse", "flex-wrap-reverse")]),
  ("justifyContent", [
    ("flex-start", "justify-start"), ("start", "justify-start"), ("flex-end", "justify-end"),
    ("end", "justify-end"), ("center", "justify-center"), ("space-between", "justify-between"),
    ("space-around", "justify-around"), ("space-evenly", "justify-evenly")]),
  ("alignItems", [
    ("flex-start", "items-start"), ("start", "items-start"), ("flex-end", "items-end"),
    ("end", "items-end"), ("center", "items-center"), ("baseline", "items-baseline"),
    ("stretch", "items-stretch")]),
  ("alignSelf", [
    ("auto", "self-auto"), ("flex-start", "self-start"), ("flex-end", "self-end"),
    ("center", "self-center"), ("stretch", "self-stretch")]),
  ("textAlign", [
    ("left", "text-left"), ("center", "text-center"), ("right", "text-right"),
    ("justify", "text-justify")]),
  ("textDecoration", [
    ("underline", "underline"), ("line-through", "line-through"), ("none", "no-underline")]),
  ("textTransform", [
    ("uppercase", "uppercase"), ("lowercase", "lowercase"), ("capitalize", "capitalize")]),
  ("fontWeight", [
    ("normal", "font-normal"), ("bold", "font-bold")]),
  ("overflow", [
    ("auto", "overflow-auto"), ("hidden", "overflow-hidden"), ("visible", "overflow-visible"),
    ("scroll", "overflow-scroll")]),
  ("overflowX", [
    ("auto", "overflow-x-auto"), ("hidden", "overflow-x-hidden"), ("scroll", "overflow-x-scroll")]),
  ("overflowY", [
    ("auto", "overflow-y-auto"), ("hidden", "overflow-y-hidden"), ("scroll", "overflow-y-scroll")])]

def fontWeights : List (String × String) := [
  ("100", "font-thin"), ("200", "font-extralight"), ("300", "font-light"),
  ("400", "font-normal"), ("500", "font-medium"), ("600", "font-semibold"), ("700", "font-bold"),
  ("800", "font-extrabold"), ("900", "font-black")]

def spacingScale : List (Nat × String) := [
  (0, "0"), (1, "px"), (2, "0.5"), (4, "1"), (6, "1.5"), (8, "2"), (10, "2.5"), (12, "3"),
  (14, "3.5"), (16, "4"), (20, "5"), (24, "6"), (28, "7"), (32, "8"), (36, "9"), (40, "10"),
  (44, "11"), (48, "12"), (56, "14"), (64, "16"), (80, "20"), (96, "24"), (112, "28"),
  (128, "32"), (144, "36"), (160, "40"), (176, "44"), (192, "48"), (208, "52"), (224, "56"),
  (240, "60"), (256, "64"), (288, "72"), (320, "80"), (384, "96")]

def radiusScale : List (Nat × String) := [
  (0, "none"), (2, "sm"), (4, ""), (6, "md"), (8, "lg"), (12, "xl"), (16, "2xl"), (24, "3xl"),
  (9999, "full")]

def fontSizes : List (Nat × String) := [
  (12, "text-xs"), (14, "text-sm"), (16, "text-base"), (18, "text-lg"), (20, "text-xl"),
  (24, "text-2xl"), (30, "text-3xl"), (36, "text-4xl"), (48, "text-5xl"), (60, "text-6xl")]

def borderWidths : List (Nat × String) := [
  (0, "border-0"), (1, "border"), (2, "border-2"), (4, "border-4"), (8, "border-8")]

def extentKeywords : List (String × String) := [
  ("100%", "full"), ("auto", "auto"), ("100vw", "screen"), ("100vh", "screen"),
  ("100dvh", "screen"), ("100svh", "screen"), ("50%", "1/2"), ("25%", "1/4"), ("75%", "3/4"),
  ("fit-content", "fit"), ("min-content", "min"), ("max-content", "max")]

def minHeights : List (String × String) := [
  ("100vh", "min-h-screen"), ("100%", "min-h-full")]

def layers : List (String × String) := [
  ("auto", "z-auto"), ("0", "z-0"), ("10", "z-10"), ("20", "z-20"), ("30", "z-30"),
  ("40", "z-40"), ("50", "z-50")]

def namedColors : List (String × String) := [
  ("transparent", "transparent"), ("currentColor", "current"), ("currentcolor", "current"),
  ("black", "black"), ("white", "white")]

def hexColors : List (String × String) := [
  ("000000", "black"), ("ffffff", "white"), ("f9fafb", "gray-50"), ("f3f4f6", "gray-100"),
  ("e5e7eb", "gray-200"), ("d1d5db", "gray-300"), ("9ca3af", "gray-400"), ("6b7280", "gray-500"),
  ("4b5563", "gray-600"), ("374151", "gray-700"), ("1f2937", "gray-800"), ("111827", "gray-900"),
  ("fee2e2", "red-100"), ("ef4444", "red-500"), ("dc2626", "red-600"), ("f97316", "orange-500"),
  ("eab308", "yellow-500"), ("dcfce7", "green-100"), ("22c55e", "green-500"),
  ("16a34a", "green-600"), ("14b8a6", "teal-500"), ("dbeafe", "blue-100"),
  ("3b82f6", "blue-500"), ("2563eb", "blue-600"), ("1d4ed8", "blue-700"),
  ("6366f1", "indigo-500"), ("a855f7", "purple-500"), ("ec4899", "pink-500")]

end Pagewright.Style
