import Pagewright.Generator.Basic
import Pagewright.Proofs.Markup.Emission

/-!
# Plans do not read the format option

Whether modules will be formatted is decided after everything else: plans, the texts
of their modules and the advice about a page are the same with the option on and off.
Elements are compared by recursion on the view, and what an emitter remembers by one
lemma for each thing it does.
-/

set_option autoImplicit false

namespace Pagewright

def Options.withFormat (options : Options) (on : Bool) : Options := { options with format := on }

theorem Options.typeScript_withFormat (options : Options) (on : Bool) :
    (options.withFormat on).typeScript = options.typeScript := rfl

/-! ## Texts -/

namespace View

mutual

theorem element_withFormat (options : Options) (on : Bool) :
    ∀ view : View, element (options.withFormat on) view = element options view
  | .placeholder _ => rfl
  | .node root nested children => by
    rw [element, elements_withFormat options on children, element]
    rfl

theorem elements_withFormat (options : Options) (on : Bool) :
    ∀ views : List View, elements (options.withFormat on) views = elements options views
  | [] => rfl
  | view :: rest => by
    rw [elements, element_withFormat options on view, elements_withFormat options on rest, elements]

end

end View

theorem Returned.render_withFormat (options : Options) (on : Bool) (returned : Returned) :
    returned.render (options.withFormat on) = returned.render options := by
  cases returned with
  | body b => simp only [render, Body.render, Body.lines, View.elements_withFormat]
  | companion name data => cases data <;> rfl
  | fixed lines => rfl

theorem ComponentFunction.render_withFormat (options : Options) (on : Bool)
    (f : ComponentFunction) : f.render (options.withFormat on) = f.render options := by
  rw [render, render, Returned.render_withFormat, Options.typeScript_withFormat]

theorem Block.render_withFormat (options : Options) (on : Bool) (block : Block) :
    block.render (options.withFormat on) = block.render options := by
  cases block with
  | component f => exact f.render_withFormat options on
  | _ => rfl

theorem PageModule.render_withFormat (options : Options) (on : Bool) (m : PageModule) :
    m.render (options.withFormat on) = m.render options := by
  rw [render, render, funext (Block.render_withFormat options on)]

/-! ## Emission -/

namespace Emitter

def withFormat (e : Emitter) (on : Bool) : Emitter :=
  { e with options := e.options.withFormat on }

theorem noteAll_withFormat (e : Emitter) (on : Bool) (components : List Component) :
    (e.withFormat on).noteAll components = (e.noteAll components).withFormat on :=
  (List.foldl_hom (withFormat · on) fun _ _ => rfl)

theorem renderScoped_withFormat (e : Emitter) (on : Bool) (id : String) :
    (e.withFormat on).renderScoped id =
      ((e.renderScoped id).1, (e.renderScoped id).2.1, (e.renderScoped id).2.2.withFormat on) := by
  have noted : ({ e.withFormat on with handlerNames := [] } : Emitter).noteAll
      (e.body [id]).components =
      (({ e with handlerNames := [] } : Emitter).noteAll (e.body [id]).components).withFormat on :=
    noteAll_withFormat { e with handlerNames := [] } on (e.body [id]).components
  have body : (e.withFormat on).body [id] = e.body [id] := rfl
  simp only [renderScoped, body, noted]
  rfl

end Emitter

theorem Forest.emit_withFormat (forest : Forest) (options : Options) (on : Bool)
    (substitutions : Substitutions) (ids : List String) :
    forest.emit (options.withFormat on) substitutions ids =
      forest.emit options substitutions ids := by
  have noted := Emitter.noteAll_withFormat
    (Emitter.analyze { forest, options, substitutions } ids) on
    (forest.body substitutions ids).components
  exact congrArg (fun e => EmittedBody.mk (forest.body substitutions ids) e.imports e.stubNames
    e.fallbacks e.voidParents) noted

namespace PageRequest

theorem islandFunctions_withFormat (e : Emitter) (on : Bool) (names : List (String × String)) :
    islandFunctions (e.withFormat on) names =
      ((islandFunctions e names).1, (islandFunctions e names).2.withFormat on) := by
  induction names generalizing e with
  | nil => rfl
  | cons entry rest ih =>
    obtain ⟨id, name⟩ := entry
    simp only [islandFunctions, Emitter.renderScoped_withFormat, ih]

theorem modules_withFormat (page : PageRequest) (options : Options) (on : Bool)
    (placement : Placement) (emitted : EmittedBody) :
    page.modules (options.withFormat on) placement emitted =
      page.modules options placement emitted := rfl

theorem plan_withFormat (page : PageRequest) (options : Options) (on : Bool) :
    page.plan (options.withFormat on) = page.plan options := by
  simp only [plan, Forest.emit_withFormat, modules_withFormat]
  rfl

theorem dynamicPlan_withFormat (page : PageRequest) (options : Options) (on : Bool)
    (params : List RouteParam) :
    page.dynamicPlan (options.withFormat on) params = page.dynamicPlan options params := by
  simp only [dynamicPlan, Forest.emit_withFormat]
  rfl

theorem splitPlan_withFormat (page : PageRequest) (options : Options) (on : Bool) :
    page.splitPlan (options.withFormat on) = page.splitPlan options := by
  have start (ids : List String) :
      ({ forest := Forest.ofComponents page.components
         options := options.withFormat on } : Emitter).analyze ids =
        (({ forest := Forest.ofComponents page.components, options } : Emitter).analyze
          ids).withFormat on := rfl
  simp only [splitPlan, Forest.emit_withFormat, modules_withFormat, start,
    islandFunctions_withFormat]
  rfl

end PageRequest

theorem suggest_withFormat (options : Options) (on : Bool) (components : List Component) :
    suggest (options.withFormat on) components = suggest options components := rfl

end Pagewright
