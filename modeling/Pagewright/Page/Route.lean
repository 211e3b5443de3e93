import Pagewright.Code.Name
import Pagewright.Text.Blank

/-!
# Routes

A route is a path of segments, mounted as directories below the application
directory. White space around a segment and empty segments do not count. Route
parameters are bracketed segments; a parameter that the path does not name yet is
appended to it.
-/

set_option autoImplicit false

namespace Pagewright

inductive ParamKind where
  | string
  | number
  | catchAll
  | optionalCatchAll
  deriving DecidableEq, Repr

structure RouteParam where
  name : String
  kind : ParamKind
  deriving DecidableEq, Repr

namespace RouteParam

def segment (p : RouteParam) : String :=
  match p.kind with
  | .string => "[" ++ p.name ++ "]"
  | .number => "[" ++ p.name ++ "]"
  | .catchAll => "[..." ++ p.name ++ "]"
  | .optionalCatchAll => "[[..." ++ p.name ++ "]]"

def fieldType (p : RouteParam) : String :=
  match p.kind with
  | .string => p.name ++ ": string"
  | .number => p.name ++ ": string"
  | .catchAll => p.name ++ ": string[]"
  | .optionalCatchAll => p.name ++ "?: string[]"

def rawName (p : RouteParam) : String :=
  match p.kind with
  | .number => p.name ++ "Param"
  | _ => p.name

def pattern (p : RouteParam) : String :=
  match p.kind with
  | .number => p.name ++ ": " ++ p.rawName
  | _ => p.name

def typeOf (params : List RouteParam) : String :=
  "\x7b " ++ Text.join "; " (params.map fieldType) ++ " \x7d"

end RouteParam

namespace Route

def appDirectory : String := "app"

def segments (route : String) : List String :=
  ((Text.split '/' route).map Text.trim).filter (fun s => !s.isEmpty)

def directory (route : String) : String := Text.join "/" (appDirectory :: segments route)

def isBracket (c : Char) : Bool := c == '[' || c == ']' || c == '.'

def bareSegment (segment : String) : String :=
  String.ofList (((segment.toList.dropWhile isBracket).reverse.dropWhile isBracket).reverse)

def withoutFinalSlashes (route : String) : String :=
  String.ofList ((route.toList.reverse.dropWhile (· == '/')).reverse)

def withParams (route : String) (params : List RouteParam) : String :=
  let existing := (Text.split '/' route).map bareSegment
  params.foldl
    (fun route p => if existing.contains p.name then route else route ++ "/" ++ p.segment)
    (withoutFinalSlashes route)

end Route

end Pagewright
