import Pagewright.Code.Module
import Pagewright.Proofs.Text.Split

/-!
# Functions of a module

The component functions among the blocks of a module, with the components that they
show and the stubs that they declare. The text of a module holds what its functions
return, one after the other and without change.
-/

set_option autoImplicit false

namespace Pagewright

def Returned.components : Returned → List Component
  | .body b => b.components
  | _ => []

def ComponentFunction.stubNames (f : ComponentFunction) : List String :=
  f.setup.filterMap fun s =>
    match s with
    | .stub name => some name
    | _ => none

@[simp] def Block.functions : Block → List ComponentFunction
  | .component f => [f]
  | _ => []

namespace PageModule

def functions (m : PageModule) : List ComponentFunction := m.blocks.flatMap Block.functions

def components (m : PageModule) : List Component :=
  m.functions.flatMap fun f => f.returned.components

theorem functions_of_components (placement : Placement) (imports : Imports)
    (functions : List ComponentFunction) :
    PageModule.functions ⟨placement, imports, functions.map .component⟩ = functions := by
  rw [PageModule.functions, List.flatMap_map]
  exact List.flatMap_singleton' functions

end PageModule

/-! ## What functions return -/

open Text

theorem ComponentFunction.holds_returned (options : Options) (f : ComponentFunction) :
    Holds [f.returned.render options] (f.render options) := by
  have cut : ∀ before returned line margin ending : String,
      before ++ returned ++ line ++ margin ++ ending =
        before ++ returned ++ (line ++ margin ++ ending) := by
    simp only [String.append_assoc, implies_true]
  exact ⟨_, _, cut _ _ "\n" (indent 1) ");\n\x7d", trivial⟩

theorem Block.holds_returned (options : Options) (b : Block) :
    Holds (b.functions.map fun f => f.returned.render options) (b.render options) := by
  cases b with
  | component f => exact f.holds_returned options
  | metadata value => trivial
  | fetch fetching => trivial
  | routeProps params => trivial
  | staticParams => trivial

theorem holds_assembleModule {parts : List String} {blocks : List String} (hne : blocks ≠ [])
    (h : Holds parts (join "\n\n" blocks)) (directive : Option String) (imports : List String) :
    Holds parts (assembleModule directive imports blocks) := by
  have joined : ∀ before : List String, Holds parts (join "\n\n" (before ++ blocks)) := by
    intro before
    induction before with
    | nil => exact h
    | cons first rest ih =>
      obtain ⟨next, others, hnext⟩ :=
        List.exists_cons_of_ne_nil (List.append_ne_nil_of_right_ne_nil rest hne)
      have apart : Holds [] (first ++ "\n\n") := trivial
      rw [List.cons_append, hnext, join_cons_cons, ← hnext]
      exact apart.append ih
  have ending : Holds [] "\n" := trivial
  have whole := Holds.append
    (joined (directive.toList ++ if imports.isEmpty then [] else [unlines imports])) ending
  rwa [List.append_nil] at whole

theorem PageModule.holds_returned (options : Options) (m : PageModule) :
    Holds (m.functions.map fun f => f.returned.render options) (m.render options) := by
  have joined : Holds (m.functions.map fun f => f.returned.render options)
      (join "\n\n" (m.blocks.map (Block.render options))) := by
    rw [functions, List.map_flatMap]
    exact holds_join "\n\n" fun b _ => b.holds_returned options
  by_cases hne : m.blocks = []
  · simp [functions, hne, Holds]
  · exact holds_assembleModule (by simpa using hne) joined _ _

end Pagewright
