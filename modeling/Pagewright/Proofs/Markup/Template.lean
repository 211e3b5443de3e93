import Pagewright.Proofs.Markup.View
import Pagewright.Proofs.Placement.Island

/-!
# Templates

The markup of a forest as a list of segments: lines that are fixed, and places where
an island stands. Whatever is rendered for the islands, the lines around them are the
same, because a substitution changes nothing but the elements it replaces. A template
is a property of the trees; filling its islands with placeholders gives the page
around them, filling them with their own markup gives the page in one piece.
-/

set_option autoImplicit false

namespace Pagewright

inductive Segment where
  | literal (line : String)
  | island (index depth : Nat)
  deriving DecidableEq, Repr

theorem Text.unlines_append {a b : List String} (ha : a ≠ []) (hb : b ≠ []) :
    Text.unlines (a ++ b) = Text.unlines a ++ "\n" ++ Text.unlines b := by
  obtain ⟨first, others, rfl⟩ := List.exists_cons_of_ne_nil hb
  induction a with
  | nil => exact absurd rfl ha
  | cons line rest ih =>
    cases rest with
    | nil => rfl
    | cons next more =>
      have hrest := ih (by simp)
      simp only [Text.unlines, List.cons_append, Text.join] at hrest ⊢
      simp only [hrest, String.append_assoc]

theorem Element.childLines_eq_flatMap (depth : Nat) (elements : List Element) :
    childLines depth elements = elements.flatMap (lines depth) := by
  induction elements with
  | nil => rfl
  | cons e rest ih => simp [childLines, ih]

namespace Segment

def island? : Segment → Option Nat
  | .literal _ => none
  | .island index _ => some index

def lines (fill : Nat → Nat → List String) : Segment → List String
  | .literal line => [line]
  | .island index depth => fill index depth

@[simp] theorem lines_literals (fill : Nat → Nat → List String) (ls : List String) :
    (ls.map literal).flatMap (lines fill) = ls := by
  induction ls with
  | nil => rfl
  | cons line rest ih => simpa [lines] using ih

@[simp] theorem islands_literals (ls : List String) :
    ls.filterMap (island? ∘ literal) = [] := by
  simp [island?]

end Segment

def Component.openingLines (options : Options) (depth : Nat) (c : Component) : List String :=
  Element.openLines depth (Primitive.ofKind c.kind).tag (c.attributes options) ">" ">" ++
    ((c.content?.map Prod.snd).toList.map fun value =>
      Text.indent (depth + 1) ++ Element.contentCode value)

def Component.closingLine (depth : Nat) (c : Component) : String :=
  Text.indent depth ++ Element.closeTag (Primitive.ofKind c.kind).tag

def Place.isCut (p : Place) : Bool := p.isIsland && p.isShown

namespace ComponentTree

mutual

def template (options : Options) (number : String → Option Nat) (depth : Nat) :
    ComponentTree → List Segment
  | .node c children =>
    match number c.id with
    | some index => [.island index depth]
    | none =>
      if (Primitive.ofKind c.kind).void || children.isEmpty then
        ((View.elementOf options c false []).lines depth).map .literal
      else
        (c.openingLines options depth).map .literal ++
          templatesOf options number (depth + 1) children ++ [.literal (c.closingLine depth)]

def templatesOf (options : Options) (number : String → Option Nat) (depth : Nat) :
    List ComponentTree → List Segment
  | [] => []
  | t :: rest => template options number depth t ++ templatesOf options number depth rest

end

/-- Under every substitution that leaves the other components alone, the lines of the trees are
those of their template. -/
theorem template_lines (options : Options) (number : String → Option Nat)
    (substitutions : Substitutions) (fill : Nat → Nat → List String) (trees : List ComponentTree)
    (depth : Nat)
    (hfree : ∀ t ∈ subtreesOf trees, number t.id = none → substitutions.find? t.id = none)
    (hfill : ∀ t ∈ subtreesOf trees, ∀ index, number t.id = some index → ∀ d,
      fill index d = (View.element options (t.view substitutions)).lines d) :
    Element.childLines depth (View.elements options (viewsOf substitutions trees)) =
      (templatesOf options number depth trees).flatMap (Segment.lines fill) := by
  induction trees using siblings_induction generalizing depth with
  | nil => rfl
  | cons c children rest ihc ihr =>
    simp only [subtreesOf_cons, List.mem_cons, List.mem_append] at hfree hfill
    have below := ihc (depth + 1) (fun t ht => hfree t (.inr (.inl ht)))
      fun t ht => hfill t (.inr (.inl ht))
    have beside := ihr depth (fun t ht => hfree t (.inr (.inr ht)))
      fun t ht => hfill t (.inr (.inr ht))
    have here : (View.element options (view substitutions (.node c children))).lines depth =
        (template options number depth (.node c children)).flatMap (Segment.lines fill) := by
      cases hnumber : number c.id with
      | some index =>
        have heq := hfill (.node c children) (.inl rfl) index hnumber depth
        simp [template, hnumber, Segment.lines, heq]
      | none =>
        have hsub := hfree (.node c children) (.inl rfl) hnumber
        rw [id_node] at hsub
        simp only [template, hnumber, view, hsub]
        cases hvoid : (Primitive.ofKind c.kind).void with
        | true => simp [View.element, View.elements]
        | false =>
          cases children with
          | nil => simp [View.element, View.elements, viewsOf]
          | cons t others =>
            have lines : (View.elementOf options c true (View.elements options
                (viewsOf substitutions (t :: others)))).lines depth =
                c.openingLines options depth ++ Element.childLines (depth + 1)
                  (View.elements options (viewsOf substitutions (t :: others))) ++
                  [c.closingLine depth] := by
              simp [View.elementOf, hvoid, Element.lines, Component.openingLines,
                Component.closingLine]
            simp [View.element, lines, below, Segment.lines]
    simp [viewsOf, View.elements, Element.childLines, templatesOf, here, beside]

/-- Nothing is cut out below a browser component or below an element without content. -/
theorem filter_isCut_below {c : Component}
    (hc : c.isClient = true ∨ (Primitive.ofKind c.kind).void = true) (above : List Component)
    (trees : List ComponentTree) : (placesOf (c :: above) trees).filter Place.isCut = [] := by
  rw [List.filter_eq_nil_iff]
  intro p hp
  rcases hc with hclient | hvoid
  · have hup : c ∈ p.above := (place_above hp).subset List.mem_cons_self
    have hinside : p.above.any Component.isClient = true := List.any_eq_true.mpr ⟨c, hup, hclient⟩
    simp [Place.isCut, Place.isIsland, hinside]
  · simp [Place.isCut, hidden_below hvoid hp]

/-- The islands of a template are those that are shown, in rendering order. -/
theorem template_islands (options : Options) (number : String → Option Nat)
    (trees : List ComponentTree) (depth : Nat) (above : List Component)
    (hclient : above.any Component.isClient = false)
    (hvoid : ∀ c ∈ above, (Primitive.ofKind c.kind).void = false)
    (hnumber : ∀ p ∈ placesOf above trees, (number p.id).isSome = p.isIsland) :
    (templatesOf options number depth trees).filterMap Segment.island? =
      ((placesOf above trees).filter Place.isCut).filterMap fun p => number p.id := by
  induction trees using siblings_induction generalizing depth above with
  | nil => rfl
  | cons c children rest ihc ihr =>
    simp only [placesOf_cons, List.mem_cons, List.mem_append] at hnumber
    have beside := ihr depth above hclient hvoid fun p hp => hnumber p (.inr (.inr hp))
    have hself := hnumber ⟨c, above⟩ (.inl rfl)
    have shown : Place.isShown ⟨c, above⟩ = true := by simpa [Place.isShown] using hvoid
    simp only [Place.id, Place.isIsland, hclient, Bool.not_false, Bool.and_true] at hself
    have here : (template options number depth (.node c children)).filterMap Segment.island? =
        ((⟨c, above⟩ :: placesOf (c :: above) children).filter Place.isCut).filterMap
          fun p => number p.id := by
      cases hn : number c.id with
      | some index =>
        have hc : c.isClient = true := by simpa [hn] using hself.symm
        have island : Place.isCut ⟨c, above⟩ = true := by
          simp [Place.isCut, Place.isIsland, hc, hclient, shown]
        rw [List.filter_cons_of_pos island, filter_isCut_below (.inl hc)]
        simp [template, hn, Segment.island?, Place.id]
      | none =>
        have hc : c.isClient = false := by simpa [hn] using hself.symm
        have outside : ¬ Place.isCut ⟨c, above⟩ = true := by
          simp [Place.isCut, Place.isIsland, hc]
        rw [List.filter_cons_of_neg outside]
        cases hcvoid : (Primitive.ofKind c.kind).void with
        | true =>
          rw [filter_isCut_below (.inr hcvoid)]
          simp [template, hn, hcvoid, Segment.island?]
        | false =>
          have below := ihc (depth + 1) (c :: above) (by simp [hc, hclient])
            (by simpa [hcvoid] using hvoid) fun p hp => hnumber p (.inr (.inl hp))
          cases children with
          | nil => simp [template, hn, Segment.island?]
          | cons t others =>
            simp [template, hn, hcvoid, below, Segment.island?]
    rw [templatesOf, List.filterMap_append, here, beside, placesOf_cons, ← List.filterMap_append,
      ← List.filter_append]
    rfl

/-- The template of a body: the trees, in a fragment unless there is exactly one. -/
def bodyTemplate (options : Options) (number : String → Option Nat) (depth : Nat)
    (trees : List ComponentTree) : List Segment :=
  if trees.length != 1 then
    .literal (Text.indent depth ++ "<>") :: templatesOf options number (depth + 1) trees ++
      [.literal (Text.indent depth ++ "</>")]
  else templatesOf options number depth trees

theorem bodyTemplate_islands (options : Options) (number : String → Option Nat)
    (trees : List ComponentTree) (depth : Nat)
    (hnumber : ∀ p ∈ placesOf [] trees, (number p.id).isSome = p.isIsland) :
    (bodyTemplate options number depth trees).filterMap Segment.island? =
      ((placesOf [] trees).filter Place.isCut).filterMap fun p => number p.id := by
  have inner := fun depth => template_islands options number trees depth [] rfl (by simp) hnumber
  unfold bodyTemplate
  split
  · simp [List.filterMap_cons, Segment.island?, inner]
  · exact inner depth

theorem bodyTemplate_render (options : Options) (number : String → Option Nat)
    (substitutions : Substitutions) (fill : Nat → Nat → List String) {trees : List ComponentTree}
    (hne : trees ≠ []) (depth : Nat)
    (hfree : ∀ t ∈ subtreesOf trees, number t.id = none → substitutions.find? t.id = none)
    (hfill : ∀ t ∈ subtreesOf trees, ∀ index, number t.id = some index → ∀ d,
      fill index d = (View.element options (t.view substitutions)).lines d) :
    Body.render options depth ⟨trees.length != 1, viewsOf substitutions trees⟩ =
      Text.unlines ((bodyTemplate options number depth trees).flatMap (Segment.lines fill)) := by
  have inner : ∀ d, Body.lines options d ⟨trees.length != 1, viewsOf substitutions trees⟩ =
      (templatesOf options number d trees).flatMap (Segment.lines fill) := fun d =>
    (Element.childLines_eq_flatMap d _).symm.trans
      (template_lines options number substitutions fill trees d hfree hfill)
  unfold Body.render bodyTemplate
  split
  · have some_line : Body.lines options (depth + 1)
        ⟨trees.length != 1, viewsOf substitutions trees⟩ ≠ [] := by
      obtain ⟨t, rest, rfl⟩ := List.exists_cons_of_ne_nil hne
      obtain ⟨first, others, hlines⟩ := Element.lines_head (depth + 1)
        (View.element options (t.view substitutions))
      simp [Body.lines, viewsOf, View.elements, hlines]
    rw [inner] at some_line ⊢
    rw [List.cons_append, List.flatMap_cons, List.flatMap_append,
      Text.unlines_append (by simp [Segment.lines]) (by simp [Segment.lines]),
      Text.unlines_append some_line (by simp [Segment.lines])]
    simp [Segment.lines, Text.unlines, Text.join, String.append_assoc]
  · rw [inner]

end ComponentTree

/-! ## Texts with cuts -/

structure IslandCut where
  index : Nat
  depth : Nat
  after : String
  deriving DecidableEq, Repr

def splice (fill : Nat → Nat → String) (first : String) : List IslandCut → String
  | [] => first
  | cut :: rest => first ++ fill cut.index cut.depth ++ splice fill cut.after rest

theorem splice_append (fill : Nat → Nat → String) (before first : String) (cuts : List IslandCut) :
    splice fill (before ++ first) cuts = before ++ splice fill first cuts := by
  cases cuts <;> simp [splice, String.append_assoc]

namespace Segment

theorem lines_ne_nil {fill : Nat → Nat → List String} {segments : List Segment}
    (h : ∀ index ∈ segments.filterMap island?, ∀ depth, fill index depth ≠ []) :
    ∀ s ∈ segments, lines fill s ≠ [] := by
  intro s hs
  cases s with
  | literal line => simp [lines]
  | island index depth => exact h index (List.mem_filterMap.mpr ⟨_, hs, rfl⟩) depth

/-- The lines of a template form one text with a cut for every island, whatever is put in. -/
theorem exists_cuts (segments : List Segment) : ∃ first cuts,
    cuts.map IslandCut.index = segments.filterMap island? ∧
    ∀ fill : Nat → Nat → List String, (∀ s ∈ segments, lines fill s ≠ []) →
      Text.unlines (segments.flatMap (lines fill)) =
        splice (fun index depth => Text.unlines (fill index depth)) first cuts := by
  induction segments with
  | nil => exact ⟨"", [], rfl, fun _ _ => rfl⟩
  | cons s rest ih =>
    obtain ⟨first, cuts, hindices, hsplice⟩ := ih
    -- between two segments stands one line end, after the last none
    have glued : ∀ fill : Nat → Nat → List String, (∀ r ∈ s :: rest, lines fill r ≠ []) →
        Text.unlines ((s :: rest).flatMap (lines fill)) = Text.unlines (lines fill s) ++
          splice (fun index depth => Text.unlines (fill index depth))
            ((if rest.isEmpty then "" else "\n") ++ first) cuts := by
      intro fill hfill
      have hrest := hsplice fill fun r hr => hfill r (List.mem_cons_of_mem _ hr)
      rw [splice_append, ← hrest, List.flatMap_cons]
      cases rest with
      | nil => simp [Text.unlines, Text.join]
      | cons next others =>
        rw [Text.unlines_append (hfill s (by simp)) (by simp [hfill next])]
        simp [String.append_assoc]
    cases s with
    | literal line =>
      refine ⟨line ++ ((if rest.isEmpty then "" else "\n") ++ first), cuts, hindices, ?_⟩
      intro fill hfill
      rw [glued fill hfill]
      exact (splice_append _ line _ cuts).symm
    | island index depth =>
      refine ⟨"", ⟨index, depth, (if rest.isEmpty then "" else "\n") ++ first⟩ :: cuts,
        by simp [hindices, island?], ?_⟩
      intro fill hfill
      rw [glued fill hfill]
      simp [splice, lines]

end Segment

end Pagewright
