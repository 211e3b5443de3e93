import Pagewright.Component.Basic
import Pagewright.Text.Word

/-!
# Hook calls

The hooks that only work in the browser, with the module that exports each. A text
calls a hook where its name starts a word and an opening parenthesis or angle
bracket follows it, with white space between them or none.
-/

set_option autoImplicit false

namespace Pagewright

structure Hook where
  name : String
  module : String
  deriving DecidableEq, Repr

namespace Hook

def client : List Hook := [
  ⟨"useState", "react"⟩, ⟨"useEffect", "react"⟩, ⟨"useLayoutEffect", "react"⟩,
  ⟨"useRef", "react"⟩, ⟨"useMemo", "react"⟩, ⟨"useCallback", "react"⟩,
  ⟨"useContext", "react"⟩, ⟨"useReducer", "react"⟩, ⟨"useTransition", "react"⟩,
  ⟨"useId", "react"⟩, ⟨"useRouter", "next/navigation"⟩, ⟨"usePathname", "next/navigation"⟩,
  ⟨"useSearchParams", "next/navigation"⟩, ⟨"useParams", "next/navigation"⟩]

def opensCall (cs : List Char) : Bool :=
  match cs.dropWhile Text.isBlankChar with
  | '(' :: _ => true
  | '<' :: _ => true
  | _ => false

def calledAt? (cs : List Char) : Option Hook :=
  client.find? fun hook =>
    hook.name.toList.isPrefixOf cs && opensCall (cs.drop hook.name.length)

def callsFrom (inWord : Bool) : List Char → List Hook
  | [] => []
  | c :: rest =>
    let here := if inWord then none else calledAt? (c :: rest)
    here.toList ++ callsFrom (Text.isWordChar c) rest

def callsInText (s : String) : List Hook := callsFrom false s.toList

mutual

def calls : Json → List Hook
  | .text s => callsInText s
  | .list items => callsInItems items
  | .object fields => callsInFields fields
  | _ => []

def callsInItems : List Json → List Hook
  | [] => []
  | item :: rest => calls item ++ callsInItems rest

def callsInFields : List (String × Json) → List Hook
  | [] => []
  | (_, value) :: rest => calls value ++ callsInFields rest

end

end Hook

def Component.hooks (c : Component) : List Hook :=
  FirstSeen.ofList (c.properties.values.flatMap Hook.calls)

end Pagewright
