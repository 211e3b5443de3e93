import Pagewright.Ordered.Sorted
import Pagewright.Script.Grammar.Module

/-!
# Names of a module

What would keep a module that reads well from compiling: a name that is bound twice
at its top, and a tag that refers to a name bound nowhere there.
-/

set_option autoImplicit false

namespace Pagewright.Script

def Tree.plainNames : Tree → List String
  | .name w => [w]
  | .patternField _ p => p.plainNames
  | .objectPattern fields rest => plainNamesOfAll fields ++ plainNamesOfRest rest
  | .arrayPattern items rest => plainNamesOfAll items ++ plainNamesOfRest rest
  | .declarator p _ _ _ => p.plainNames
  | _ => []
where
  plainNamesOfAll : List Tree → List String
    | [] => []
    | p :: rest => p.plainNames ++ plainNamesOfAll rest
  plainNamesOfRest : Option Tree → List String
    | none => []
    | some p => p.plainNames

def ImportDeclaration.names (d : ImportDeclaration) : List String :=
  d.defaultName.toList ++ d.namespaceName.toList ++ (d.named.getD []).map ImportSpecifier.binding

def Tree.boundNames : Tree → List String
  | .commented _ s => s.boundNames
  | .inert s => s.boundNames
  | .imports d => d.names
  | .exportDeclaration s => s.boundNames
  | .exportDefaultDeclaration (.function _ _ w _ _ _) => w.toList
  | .variableDeclaration _ _ declarators => declarators.flatMap Tree.plainNames
  | .function _ _ w _ _ _ => w.toList
  | .classDefinition _ _ w _ _ _ _ _ => w.toList
  | _ => []

def repeated (seen : List String) : List String → List String
  | [] => []
  | w :: rest => if seen.contains w then w :: repeated seen rest else repeated (w :: seen) rest

def Program.issues (program : Program) : List ModuleIssue :=
  let bound := program.statements.flatMap Tree.boundNames
  (repeated [] bound).map .duplicateBinding ++
    ((Sorted.ofList program.tags).filter fun w => !bound.contains w).map .missingImport

end Pagewright.Script
