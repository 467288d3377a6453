import ShapeRules.Proofs.Path.Variables
import ShapeRules.Proofs.Template.Encoding

/-!
Variables in messages. The variables of a match show in a message only where an attribute of its
template begins with a call for one of them.
-/

namespace ShapeRules.Template

open Variables

variable {source : String} {template : Template} {bound bound' : Option Variables}

/-- Roots of one shape give the same message if they bind the variables that the template asks its
root for to the same shapes. -/
theorem render_congr (htemplate : parse source = .ok template)
    (h : ∀ name others, .computed ⟨.call .var [name] :: others⟩ ∈ template.fragments →
      boundTo? bound name = boundTo? bound' name) (model : Model) (id : ShapeId) :
    template.render model (.shape id bound) = template.render model (.shape id bound') := by
  have hfragments := (normal_of_parse htemplate).wellFormed
  rw [render, render]
  congr 1
  apply List.map_congr_left
  intro fragment hfragment
  cases fragment with
  | literal text => rfl
  | computed path =>
    have hpath : path.WellFormed := hfragments _ hfragment
    rw [Fragment.render, Fragment.render, Path.evaluate_shape_congr hpath]
    rintro name others rfl
    exact h name others hfragment

/-- The message of a template depends on the variables of its root only through the calls for
variables that its attributes begin with. No path of at least one segment gives a shape with
variables, so that a call for a variable behind others finds nothing. -/
theorem variables_only_at_root (model : Model) :
    (∀ source template, parse source = .ok template →
      ∀ (id : ShapeId) (bound bound' : Option Variables),
        (∀ name others, .computed ⟨.call .var [name] :: others⟩ ∈ template.fragments →
          boundTo? bound name = boundTo? bound' name) →
        template.render model (.shape id bound) = template.render model (.shape id bound')) ∧
    ∀ (start : Value) (path : Path), path.segments ≠ [] →
      (path.evaluate model start).Unbound ∧
      ∀ arguments : List String,
        Path.evaluate ⟨path.segments ++ [.call .var arguments]⟩ model start =
          (path.evaluate model start).emptied ∧
        ∀ values, path.evaluate model start = .projection values →
          ∀ element ∈ values, (Segment.call .var arguments).apply model element = .absent := by
  refine ⟨fun source template htemplate id bound bound' h => ?_, fun start path hpath => ?_⟩
  · exact render_congr htemplate h model id
  · have hunbound := path.unbound_evaluate model hpath start
    refine ⟨hunbound, fun arguments => ⟨?_, fun values hvalues element helement => ?_⟩⟩
    · rw [Path.evaluate_append]
      exact Segment.apply_var_of_unbound hunbound arguments
    · have hflat : (path.evaluate model start).Flat :=
        Path.evaluate_of_apply model (Segment.flat_apply model) hpath start
      have hsingle := hflat values hvalues element helement
      rw [hvalues] at hunbound
      rw [Segment.apply_var_of_unbound (hunbound.elements element helement)]
      cases element with
      | projection => cases hsingle
      | _ => rfl

/-- Both attributes begin with a variable that the roots bind to the same shapes. The second one
then asks these shapes for a variable that only one root binds. -/
theorem variables_only_at_root_chained : ∃ id : ShapeId, id.text = "a#S" ∧
    let source := "@\x7bvar(x)\x7d: @\x7bvar(x)|var(y)\x7d"
    let fragments : List Fragment := [.computed ⟨[.call .var ["x"]]⟩, .literal ": ",
      .computed ⟨[.call .var ["x"], .call .var ["y"]]⟩]
    let bound : Variables := [("x", [id, id]), ("y", [id])]
    let bound' : Variables := [("x", [id, id])]
    parse source = .ok ⟨source, fragments⟩ ∧
      (∀ name others, .computed ⟨.call .var [name] :: others⟩ ∈ fragments →
        boundTo? (some bound) name = boundTo? (some bound') name) ∧
      render ⟨source, fragments⟩ .empty (.shape id (some bound)) =
        render ⟨source, fragments⟩ .empty (.shape id (some bound')) ∧
      render ⟨source, fragments⟩ .empty (.shape id (some bound)) = "a#S, a#S: " := by
  refine ⟨⟨"a", "S", none, rfl, rfl, nofun⟩, rfl, ?_⟩
  intro source fragments bound bound'
  have hparse : parse source = .ok ⟨source, fragments⟩ := by
    have hencode : encode fragments = source := by decide
    rw [← hencode]
    exact parse_encode ⟨by decide, by decide⟩
  have hagree : ∀ name others, .computed ⟨.call .var [name] :: others⟩ ∈ fragments →
      boundTo? (some bound) name = boundTo? (some bound') name := by
    intro name others hmem
    obtain rfl : name = "x" := by
      simp only [fragments, List.mem_cons, Fragment.computed.injEq, Path.mk.injEq, List.cons.injEq,
        Segment.call.injEq] at hmem
      grind
    rfl
  obtain ⟨hrender, -⟩ := variables_only_at_root .empty
  exact ⟨hparse, hagree, hrender source _ hparse _ _ _ hagree, by decide⟩

end ShapeRules.Template
