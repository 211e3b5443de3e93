import Pagewright.Import.Statement
import Pagewright.Ordered.Map
import Pagewright.Ordered.Sorted

/-!
# Collecting imports

Declarations are collected per module. Named and type specifiers accumulate, a
later default or namespace name replaces the earlier one, and a replacement by a
different name is recorded as a conflict. Removing a module forgets its
declarations but not the conflicts they caused.
-/

set_option autoImplicit false

namespace Pagewright

structure ImportConflict where
  module : String
  kind : ImportKind
  previous : String
  replacement : String
  deriving DecidableEq, Repr

structure ModuleImports where
  defaultName : Option String := none
  namespaceName : Option String := none
  named : List String := []
  types : List String := []
  deriving DecidableEq, Repr

structure Imports where
  modules : List (String × ModuleImports)
  conflicts : List ImportConflict
  deriving DecidableEq, Repr

def normalSpecifier (name : String) : String := Text.join " " (Text.words name)

def specifiers (names : List String) : List String :=
  (names.map normalSpecifier).filter (fun name => !name.isEmpty)

namespace Imports

def empty : Imports := ⟨[], []⟩

def find? (imports : Imports) (module : String) : Option ModuleImports :=
  lookup module imports.modules

def contains (imports : Imports) (module : String) : Bool := (imports.find? module).isSome

def update (imports : Imports) (module : String) (f : ModuleImports → ModuleImports) : Imports :=
  { imports with modules := Sorted.adjust module (fun entry => f (entry.getD {})) imports.modules }

def conflictOf (module : String) (kind : ImportKind) (name : String) :
    Option String → List ImportConflict
  | some previous => if previous = name then [] else [⟨module, kind, previous, name⟩]
  | none => []

def addDefault (imports : Imports) (name module : String) : Imports :=
  let previous := (imports.find? module).bind ModuleImports.defaultName
  let imports := imports.update module fun entry => { entry with defaultName := some name }
  { imports with conflicts := imports.conflicts ++ conflictOf module .default name previous }

def addNamespace (imports : Imports) (name module : String) : Imports :=
  let previous := (imports.find? module).bind ModuleImports.namespaceName
  let imports := imports.update module fun entry => { entry with namespaceName := some name }
  { imports with conflicts := imports.conflicts ++ conflictOf module .namespaced name previous }

def addNamed (imports : Imports) (names : List String) (module : String) : Imports :=
  imports.update module fun entry =>
    { entry with named := Sorted.insertAll entry.named (specifiers names) }

def addTypes (imports : Imports) (names : List String) (module : String) : Imports :=
  imports.update module fun entry =>
    { entry with types := Sorted.insertAll entry.types (specifiers names) }

def addSideEffect (imports : Imports) (module : String) : Imports := imports.update module id

def addReact (imports : Imports) (names : List String) : Imports := imports.addNamed names "react"

def addNavigation (imports : Imports) (names : List String) : Imports :=
  imports.addNamed names "next/navigation"

def addLink (imports : Imports) : Imports := imports.addDefault "Link" "next/link"

def addImage (imports : Imports) : Imports := imports.addDefault "Image" "next/image"

def remove (imports : Imports) (module : String) : Imports :=
  { imports with modules := imports.modules.filter (fun entry => entry.1 != module) }

def hasNamed (imports : Imports) (module name : String) : Bool :=
  match imports.find? module with
  | some entry => entry.named.contains name
  | none => false

def size (imports : Imports) : Nat := imports.modules.length

def isEmpty (imports : Imports) : Bool := imports.modules.isEmpty

def mergeModule (imports : Imports) (module : String) (entry : ModuleImports) : Imports :=
  let imports := match entry.defaultName with
    | some name => imports.addDefault name module
    | none => imports
  let imports := match entry.namespaceName with
    | some name => imports.addNamespace name module
    | none => imports
  (imports.addNamed entry.named module).addTypes entry.types module

def merge (imports other : Imports) : Imports :=
  let merged := other.modules.foldl (fun acc entry => acc.mergeModule entry.1 entry.2) imports
  { merged with conflicts := merged.conflicts ++ other.conflicts }

def statementOf (module : String) (entry : ModuleImports) : ImportStatement :=
  ⟨module, entry.defaultName, entry.namespaceName, entry.named, entry.types⟩

def statements (imports : Imports) : List ImportStatement :=
  let all := imports.modules.map fun entry => statementOf entry.1 entry.2
  ImportTier.all.flatMap fun tier => all.filter (fun s => s.tier == tier)

def lines (imports : Imports) : List String := imports.statements.flatMap ImportStatement.lines

def source (imports : Imports) : String := Text.unlines imports.lines

def bindings (imports : Imports) : List String :=
  Sorted.ofList (imports.statements.flatMap ImportStatement.bindings)

end Imports

inductive ImportOperation where
  | addDefault (name module : String)
  | addNamespace (name module : String)
  | addNamed (names : List String) (module : String)
  | addTypes (names : List String) (module : String)
  | addSideEffect (module : String)
  | addReact (names : List String)
  | addNavigation (names : List String)
  | addLink
  | addImage
  | remove (module : String)
  | clear
  deriving DecidableEq, Repr

def Imports.apply (imports : Imports) : ImportOperation → Imports
  | .addDefault name module => imports.addDefault name module
  | .addNamespace name module => imports.addNamespace name module
  | .addNamed names module => imports.addNamed names module
  | .addTypes names module => imports.addTypes names module
  | .addSideEffect module => imports.addSideEffect module
  | .addReact names => imports.addReact names
  | .addNavigation names => imports.addNavigation names
  | .addLink => imports.addLink
  | .addImage => imports.addImage
  | .remove module => imports.remove module
  | .clear => Imports.empty

def Imports.run (imports : Imports) (operations : List ImportOperation) : Imports :=
  operations.foldl Imports.apply imports

end Pagewright
