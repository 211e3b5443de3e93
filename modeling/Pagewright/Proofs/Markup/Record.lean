import Pagewright.Page.Plan
import Pagewright.Proofs.Code.Function
import Pagewright.Proofs.Markup.Emission
import Pagewright.Proofs.Ordered.FirstSeen

/-!
# What rendering records

An emitter writes down the kinds without a primitive and the elements whose children
are left out. Each record is a function of the components that were rendered, in the
order in which they were: a component makes at most one entry, and an entry is made at
its first occasion. `Emitter.noteAll_records` says so for one body,
`islandFunctions_records` for the bodies of the islands one after the other.
-/

set_option autoImplicit false

namespace Pagewright

def unknownKinds (components : List Component) : List String :=
  (components.map Component.kind).filter fun kind => !Primitive.isKnown kind

def Forest.cutShort (forest : Forest) (components : List Component) : List String :=
  (components.filter fun c =>
    (Primitive.ofKind c.kind).void && !(forest.children c).isEmpty).map Component.id

theorem unknownKinds_append (first second : List Component) :
    unknownKinds (first ++ second) = unknownKinds first ++ unknownKinds second := by
  simp [unknownKinds]

theorem Forest.cutShort_append (forest : Forest) (first second : List Component) :
    forest.cutShort (first ++ second) = forest.cutShort first ++ forest.cutShort second := by
  simp [cutShort]

structure Emitter.Records (start : Emitter) (components : List Component) (e : Emitter) :
    Prop where
  fallbacks : e.fallbacks = FirstSeen.addAll start.fallbacks (unknownKinds components)
  voidParents :
    e.voidParents = FirstSeen.addAll start.voidParents (start.forest.cutShort components)
  forest : e.forest = start.forest

namespace Emitter.Records

variable {start middle e : Emitter} {first second : List Component}

theorem note (start : Emitter) (c : Component) : start.Records [c] (start.note c) := by
  refine ⟨?_, ?_, rfl⟩
  · cases hknown : Primitive.isKnown c.kind <;> simp [Emitter.note, unknownKinds, hknown]
  · simp only [Emitter.note, Forest.cutShort, List.filter_cons, List.filter_nil]
    split <;> rfl

theorem append (hfirst : start.Records first middle) (hsecond : middle.Records second e) :
    start.Records (first ++ second) e := by
  refine ⟨?_, ?_, hsecond.forest.trans hfirst.forest⟩
  · rw [hsecond.fallbacks, hfirst.fallbacks, ← FirstSeen.addAll_append, unknownKinds_append]
  · rw [hsecond.voidParents, hfirst.voidParents, hfirst.forest, ← FirstSeen.addAll_append,
      Forest.cutShort_append]

end Emitter.Records

theorem Emitter.noteAll_records (e : Emitter) (components : List Component) :
    e.Records components (e.noteAll components) := by
  induction components generalizing e with
  | nil => exact ⟨rfl, rfl, rfl⟩
  | cons c rest ih => exact (Records.note e c).append (ih (e.note c))

theorem Emitter.renderScoped_records (e : Emitter) (id : String) :
    e.Records (e.renderScoped id).1.components (e.renderScoped id).2.2 := by
  obtain ⟨hfallbacks, hvoids, hforest⟩ :=
    Emitter.noteAll_records { e with handlerNames := [] } (e.body [id]).components
  exact ⟨hfallbacks, hvoids, hforest⟩

theorem PageRequest.islandFunctions_records (e : Emitter) (names : List (String × String)) :
    e.Records ((islandFunctions e names).1.flatMap fun f => f.returned.components)
      (islandFunctions e names).2 := by
  induction names generalizing e with
  | nil => exact ⟨rfl, rfl, rfl⟩
  | cons entry rest ih =>
    obtain ⟨id, name⟩ := entry
    exact (e.renderScoped_records id).append (ih (e.renderScoped id).2.2)

theorem Forest.emit_records (forest : Forest) (options : Options) (substitutions : Substitutions)
    (ids : List String) :
    let emitted := forest.emit options substitutions ids
    emitted.fallbacks = FirstSeen.ofList (unknownKinds emitted.body.components) ∧
      emitted.voidParents = FirstSeen.ofList (forest.cutShort emitted.body.components) := by
  intro emitted
  obtain ⟨hfallbacks, hvoids, _⟩ := Emitter.noteAll_records
    (Emitter.analyze { forest, options, substitutions } ids) emitted.body.components
  exact ⟨hfallbacks, hvoids⟩

end Pagewright
