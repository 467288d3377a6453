import ShapeRules.Proofs.Path.Variables
import ShapeRules.Proofs.Path.WellFormed
import ShapeRules.Proofs.Value.Alike

/-!
Evaluation on values that are the same. What a segment looks up by name is the same again, and what
it goes through in order is the same up to that order.
-/

namespace ShapeRules

open Value

namespace Segment

/-- The segment gives the children of nodes, or the keys of objects, in their order. -/
def enumerates : Segment → Bool
  | .wildcard => true
  | .call .keys _ => true
  | .call .values _ => true
  | _ => false

variable {model : Model} {segment : Segment} {R : Json → Json → Prop} {x y : Json}

private theorem lift_ofOption {first second : Option Json} (h : Option.Rel R first second) :
    (ofOption (first.map ofNode)).Lift R (ofOption (second.map ofNode)) := by
  cases h with
  | none => exact .absent
  | some h => exact .node h none

theorem nodeKey_lift (hR : Json.Respected R) (hx : x.WellFormed) (hy : y.WellFormed) (h : R x y)
    (name : String) : (nodeKey x name).Lift R (nodeKey y name) := by
  have hsame := hR.same x y hx hy h
  cases hx with
  | array _ =>
    obtain ⟨ys, rfl, -⟩ := Json.same_array hsame
    rw [nodeKey, nodeKey]
    split
    · exact lift_ofOption (Aligned.getElem? (hR.items _ _ h) _)
    · exact .absent
  | object hkeys _ =>
    obtain ⟨others, rfl, -⟩ := Json.same_object hkeys hsame
    cases hy with
    | object hothers => exact lift_ofOption (hR.fields _ _ hkeys hothers h name)
  | _ =>
    cases hy with
    | array => cases hsame
    | object => cases hsame
    | _ => exact .absent

/-- On nodes that are the same, an accessor gives the same unless it enumerates. -/
theorem callNode_eq (hx : x.WellFormed) (hy : y.WellFormed) (hsame : x.same y = true)
    (trait : Option ShapeId) {accessor : Accessor} (hkeys : accessor ≠ .keys)
    (hvalues : accessor ≠ .values) (argument : String) :
    callNode x trait accessor argument = callNode y trait accessor argument := by
  cases hx with
  | array _ =>
    obtain ⟨ys, rfl, hitems⟩ := Json.same_array hsame
    cases accessor with
    | values => exact absurd rfl hvalues
    | length => exact congrArg ofCount hitems.length_eq
    | _ => rfl
  | @object fields hfields _ =>
    obtain ⟨others, rfl, sorted, hperm, haligned⟩ := Json.same_object hfields hsame
    cases hy with
    | object hothers =>
      cases accessor with
      | keys => exact absurd rfl hkeys
      | values => exact absurd rfl hvalues
      | length => exact congrArg ofCount (haligned.length_eq.trans hperm.length_eq)
      | has =>
        have hfound := Json.field?_rel (R := fun x y => x.same y = true) hothers hperm haligned
          argument
        have hgiven : (Json.field? fields argument).isSome =
            (Json.field? others argument).isSome := by
          generalize Json.field? fields argument = first at hfound ⊢
          generalize Json.field? others argument = second at hfound ⊢
          cases hfound <;> rfl
        exact congrArg Value.bool hgiven
      | _ => rfl
  | string s =>
    cases hy with
    | string t =>
      obtain rfl : s = t := by simpa [Json.same] using hsame
      rfl
    | _ => cases hsame
  | _ =>
    cases hy with
    | array => cases hsame
    | object => cases hsame
    | string => cases hsame
    | _ => cases accessor <;> rfl

theorem applyOne_node_lift (hR : Json.Respected R) (hx : x.WellFormed) (hy : y.WellFormed)
    (h : R x y) (trait : Option ShapeId) (hsegment : segment.enumerates = false) :
    (segment.applyOne model (.node x trait)).Lift R (segment.applyOne model (.node y trait)) := by
  cases segment with
  | key name => exact nodeKey_lift hR hx hy h name
  | literal name => exact nodeKey_lift hR hx hy h name
  | wildcard => cases hsegment
  | call accessor arguments =>
    have hkeys : accessor ≠ .keys := by
      rintro rfl
      cases hsegment
    have hvalues : accessor ≠ .values := by
      rintro rfl
      cases hsegment
    rw [applyOne, applyOne, ← callNode_eq hx hy (hR.same x y hx hy h) trait hkeys hvalues]
    exact lift_refl hR (closed_wellFormed.callNode hx trait accessor _)

theorem ofChildren_ordered (h : x.Ordered y) : (ofChildren x).Ordered (ofChildren y) := by
  cases h with
  | array h =>
    refine lift_ofList (List.forall₂_map_left_iff.mpr (List.forall₂_map_right_iff.mpr ?_))
    exact h.imp fun _ _ h => .node h none
  | object hkeys hvalues =>
    refine lift_ofList (List.forall₂_map_left_iff.mpr (List.forall₂_map_right_iff.mpr ?_))
    exact (Json.ordered_fields hkeys hvalues).imp fun _ _ h => .node h.2 none
  | _ => exact .absent

private theorem ofKeys_ordered {fields others : List (String × Json)}
    (h : fields.map Prod.fst = others.map Prod.fst) :
    (ofList (fields.map fun field => .string field.1)).Ordered
      (ofList (others.map fun field => .string field.1)) := by
  have hkeys : fields.map (fun field => Value.string field.1) =
      others.map fun field => Value.string field.1 := by
    simpa [Function.comp_def] using congrArg (List.map Value.string) h
  rw [hkeys]
  refine lift_refl Json.respected_ordered (wellFormed_ofList fun value hvalue => ?_)
  obtain ⟨field, -, rfl⟩ := List.mem_map.mp hvalue
  exact .string field.1

/-- Nodes that are ordered alike enumerate alike. -/
theorem applyOne_node_ordered (hx : x.WellFormed) (hy : y.WellFormed) (h : x.Ordered y)
    (trait : Option ShapeId) : (segment.applyOne model (.node x trait)).Ordered
      (segment.applyOne model (.node y trait)) := by
  by_cases hsegment : segment.enumerates = false
  · exact applyOne_node_lift Json.respected_ordered hx hy h trait hsegment
  · cases segment with
    | wildcard => exact ofChildren_ordered h
    | call accessor arguments =>
      cases accessor with
      | keys =>
        cases h with
        | object hkeys _ => exact ofKeys_ordered hkeys
        | _ => exact .absent
      | values => exact ofChildren_ordered h
      | _ => exact absurd rfl hsegment
    | _ => exact absurd rfl hsegment

/-- What is made of each field of objects that are the same is alike. -/
private theorem alike_fields {fields sorted others : List (String × Json)}
    {f : String × Json → Value} (hperm : sorted.Perm others)
    (haligned : List.Forall₂ (fun x y => x.1 = y.1 ∧ x.2.same y.2 = true) fields sorted)
    (hf : ∀ x y : String × Json, x.1 = y.1 → x.2.same y.2 = true → Alike (f x) (f y)) :
    Alike (ofList (fields.map f)) (ofList (others.map f)) := by
  refine alike_ofList ?_
  rw [← Multiset.map_coe, ← Multiset.map_coe, Multiset.rel_map, ← Multiset.coe_eq_coe.mpr hperm]
  exact (rel_of_aligned haligned).mono fun x _ y _ h => hf x y h.1 h.2

theorem ofChildren_alike (hx : x.WellFormed) (hsame : x.same y = true) :
    Alike (ofChildren x) (ofChildren y) := by
  cases hx with
  | array _ =>
    obtain ⟨ys, rfl, hitems⟩ := Json.same_array hsame
    refine .same (Lift.same (lift_ofList ?_))
    refine List.forall₂_map_left_iff.mpr (List.forall₂_map_right_iff.mpr ?_)
    exact hitems.imp fun _ _ h => .node h none
  | object hkeys _ =>
    obtain ⟨others, rfl, sorted, hperm, haligned⟩ := Json.same_object hkeys hsame
    refine alike_fields hperm haligned fun x y _ h => .same ?_
    exact Lift.same (.node h none)
  | _ =>
    cases y with
    | array ys => cases hsame
    | object others => cases hsame
    | _ => exact .same rfl

theorem applyOne_node_alike (hx : x.WellFormed) (hy : y.WellFormed) (hsame : x.same y = true)
    (trait : Option ShapeId) :
    Alike (segment.applyOne model (.node x trait)) (segment.applyOne model (.node y trait)) := by
  by_cases hsegment : segment.enumerates = false
  · exact .same (applyOne_node_lift Json.respected_same hx hy hsame trait hsegment).same
  · cases segment with
    | wildcard => exact ofChildren_alike hx hsame
    | call accessor arguments =>
      cases accessor with
      | keys =>
        cases hx with
        | object hkeys _ =>
          obtain ⟨others, rfl, sorted, hperm, haligned⟩ := Json.same_object hkeys hsame
          refine alike_fields hperm haligned fun x y h _ => .same ?_
          change (Value.string x.1).same (.string y.1) = true
          rw [h]
          exact Lift.same (.string y.1)
        | _ =>
          cases hy with
          | object => cases hsame
          | _ => exact .same rfl
      | values => exact ofChildren_alike hx hsame
      | _ => exact absurd rfl hsegment
    | _ => exact absurd rfl hsegment

/-- On a shape, segments do not depend on the order of its variables. -/
theorem applyOne_shape (model : Model) (segment : Segment) (id : ShapeId)
    {bound bound' : Option Variables} (h : sameVariables bound bound' = true)
    (hbound : ∀ known ∈ bound, Keyed.DistinctKeys known) :
    segment.applyOne model (.shape id bound) = segment.applyOne model (.shape id bound') := by
  refine segment.applyOne_shape_congr fun arguments _ => ?_
  exact find?_eq_of_sameVariables h hbound _

variable {a b : Value}

/-- What holds of a segment on nodes holds on all values. -/
theorem apply_lift (hR : Json.Respected R) (hmodel : model.WellFormed)
    (hnode : ∀ x y trait, x.WellFormed → y.WellFormed → R x y →
      (segment.applyOne model (.node x trait)).Lift R (segment.applyOne model (.node y trait)))
    (ha : a.WellFormed) (hb : b.WellFormed) (h : a.Lift R b) :
    (segment.apply model a).Lift R (segment.apply model b) := by
  induction ha generalizing b with
  | absent =>
    cases h
    exact lift_refl hR (wellFormed_apply hmodel segment .absent)
  | bool b =>
    cases h
    exact lift_refl hR (wellFormed_apply hmodel segment (.bool b))
  | string s =>
    cases h
    exact lift_refl hR (wellFormed_apply hmodel segment (.string s))
  | @shape id bound hbound =>
    cases h with
    | shape _ hsame =>
      -- Only the order of the variables may differ, which no segment shows.
      change (segment.applyOne model _).Lift R (segment.applyOne model _)
      rw [← applyOne_shape model segment id hsame hbound]
      exact lift_refl hR (wellFormed_applyOne hmodel segment (.shape id hbound))
  | node hx =>
    cases h with
    | node h =>
      cases hb with
      | node hy => exact hnode _ _ _ hx hy h
  | projection _ ih =>
    cases h with
    | projection h =>
      cases hb with
      | projection hvalues =>
        rw [apply_projection, apply_projection]
        refine lift_ofList (List.forall₂_map_left_iff.mpr (List.forall₂_map_right_iff.mpr ?_))
        exact Aligned.imp_of_mem h fun x hx y hy hxy => ih x hx (hvalues y hy) hxy

/-- On values that are the same a segment gives values that are alike. -/
theorem apply_alike_of_same (hmodel : model.WellFormed) (ha : a.WellFormed) (hb : b.WellFormed)
    (h : a.same b = true) : Alike (segment.apply model a) (segment.apply model b) := by
  have hlift := lift_of_same h
  have hrefl {value : Value} (hvalue : value.WellFormed) :
      Alike (segment.apply model value) (segment.apply model value) :=
    .same (lift_refl Json.respected_same (wellFormed_apply hmodel segment hvalue)).same
  -- The induction goes by the relation, which comes apart with the values as the test does not.
  clear h
  induction ha generalizing b with
  | absent =>
    cases hlift
    exact hrefl .absent
  | bool b =>
    cases hlift
    exact hrefl (.bool b)
  | string s =>
    cases hlift
    exact hrefl (.string s)
  | @shape id bound hbound =>
    cases hlift with
    | shape _ hsame =>
      have hself := hrefl (.shape id hbound)
      change Alike (segment.applyOne model _) (segment.applyOne model _) at hself ⊢
      rwa [← applyOne_shape model segment id hsame hbound]
  | node hx =>
    cases hlift with
    | node h =>
      cases hb with
      | node hy => exact applyOne_node_alike hx hy h _
  | projection _ ih =>
    cases hlift with
    | projection h =>
      cases hb with
      | projection hvalues =>
        rw [apply_projection, apply_projection]
        refine alike_ofList (rel_of_aligned ?_)
        refine List.forall₂_map_left_iff.mpr (List.forall₂_map_right_iff.mpr ?_)
        exact Aligned.imp_of_mem h fun x hx y hy hxy => ih x hx (hvalues y hy) hxy

theorem apply_alike (hmodel : model.WellFormed) (ha : a.WellFormed) (hb : b.WellFormed)
    (h : Alike a b) : Alike (segment.apply model a) (segment.apply model b) := by
  cases h with
  | same h => exact apply_alike_of_same hmodel ha hb h
  | projection h =>
    cases ha with
    | projection hxs =>
      cases hb with
      | projection hys =>
        rw [apply_projection, apply_projection]
        refine alike_ofList ?_
        rw [← Multiset.map_coe, ← Multiset.map_coe, Multiset.rel_map]
        exact h.mono fun x hx y hy hxy => apply_alike_of_same hmodel (hxs x hx) (hys y hy) hxy

end Segment

namespace Path

variable {model : Model} {a b : Value} {R : Json → Json → Prop}

theorem evaluate_lift (hR : Json.Respected R) (hmodel : model.WellFormed) (path : Path)
    (hnode : ∀ segment ∈ path.segments, ∀ x y trait, x.WellFormed → y.WellFormed → R x y →
      (segment.applyOne model (.node x trait)).Lift R (segment.applyOne model (.node y trait)))
    (ha : a.WellFormed) (hb : b.WellFormed) (h : a.Lift R b) :
    (path.evaluate model a).Lift R (path.evaluate model b) := by
  obtain ⟨segments⟩ := path
  induction segments generalizing a b with
  | nil => exact h
  | cons segment segments ih =>
    obtain ⟨hfirst, hothers⟩ := List.forall_mem_cons.mp hnode
    exact ih (Segment.wellFormed_apply hmodel segment ha)
      (Segment.wellFormed_apply hmodel segment hb) (Segment.apply_lift hR hmodel hfirst ha hb h)
      hothers

theorem evaluate_alike (hmodel : model.WellFormed) (path : Path) (ha : a.WellFormed)
    (hb : b.WellFormed) (h : Alike a b) :
    Alike (path.evaluate model a) (path.evaluate model b) := by
  obtain ⟨segments⟩ := path
  induction segments generalizing a b with
  | nil => exact h
  | cons segment segments ih =>
    exact ih (Segment.wellFormed_apply hmodel segment ha)
      (Segment.wellFormed_apply hmodel segment hb) (Segment.apply_alike hmodel ha hb h)

end Path

end ShapeRules
