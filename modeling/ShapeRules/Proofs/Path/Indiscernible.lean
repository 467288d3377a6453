import ShapeRules.Proofs.Path.Congruence

/-!
Values that no path tells apart. They are those that are the same with the fields of all objects in
the same order: the keys of an object and its wildcard show the order of its fields, although two
objects are the same whatever that order.
-/

namespace ShapeRules.Path

open Value

variable {model : Model} {a b : Value}

/-- No path tells the values apart. -/
def Indiscernible (model : Model) (a b : Value) : Prop :=
  ∀ path : Path, (path.evaluate model a).same (path.evaluate model b) = true

namespace Indiscernible

variable {x y : Json} {trait trait' : Option ShapeId} {xs ys : List Value}
  {items others : List Json}

theorem same (h : Indiscernible model a b) : a.same b = true := h ⟨[]⟩

theorem apply (h : Indiscernible model a b) (segment : Segment) :
    Indiscernible model (segment.apply model a) (segment.apply model b) :=
  fun path => h ⟨segment :: path.segments⟩

/-- The elements of projections are not told apart either: values that are the same give as many
results each, so their shares in the joined results can be told. -/
theorem elements (hmodel : model.WellFormed) (hxs : ∀ x ∈ xs, x.WellFormed)
    (hys : ∀ y ∈ ys, y.WellFormed) (h : Indiscernible model (.projection xs) (.projection ys)) :
    List.Forall₂ (Indiscernible model) xs ys := by
  have hsame : List.Forall₂ (fun x y : Value => x.same y = true) xs ys := sameAll_iff.mp h.same
  have : Nonempty Path := ⟨⟨[]⟩⟩
  refine Aligned.forall_of_forall fun path => ?_
  obtain ⟨segments⟩ := path
  cases segments with
  | nil => exact hsame
  | cons segment segments =>
    have halike : List.Forall₂ (fun x y : Value =>
        Alike (evaluate ⟨segment :: segments⟩ model x) (evaluate ⟨segment :: segments⟩ model y))
        xs ys :=
      Aligned.imp_of_mem hsame fun x hx y hy hxy =>
        evaluate_alike hmodel _ (hxs x hx) (hys y hy) (.same hxy)
    have hjoined := h ⟨segment :: segments⟩
    rw [evaluate_ofList, evaluate_ofList] at hjoined
    replace hjoined := sameAll_iff.mp hjoined
    rw [allParts_eq_flatMap, allParts_eq_flatMap, List.flatMap_map, List.flatMap_map] at hjoined
    -- Of values that are alike both give as many results, so what is joined can be cut again.
    have hshares := Aligned.of_flatMap (halike.imp fun _ _ h => h.parts.length_eq) hjoined
    exact (Aligned.and halike hshares).imp fun x y h =>
      h.1.same_of_parts (flat_evaluate model _ _ x) (flat_evaluate model _ _ y) h.2

private theorem children (hmodel : model.WellFormed) (hitems : ∀ item ∈ items, item.WellFormed)
    (hothers : ∀ other ∈ others, other.WellFormed)
    (h : Indiscernible model (ofList (items.map ofNode)) (ofList (others.map ofNode))) :
    List.Forall₂ (fun x y => Indiscernible model (ofNode x) (ofNode y)) items others := by
  have hsingle (nodes : List Json) : ofList (nodes.map ofNode) = .projection (nodes.map ofNode) :=
    ofList_of_single (List.forall_mem_map.mpr fun _ _ => rfl)
  rw [hsingle, hsingle] at h
  refine List.forall₂_map_left_iff.mp (List.forall₂_map_right_iff.mp (h.elements hmodel ?_ ?_))
  · exact List.forall_mem_map.mpr fun item hitem => wellFormed_ofNode (hitems item hitem)
  · exact List.forall_mem_map.mpr fun other hother => wellFormed_ofNode (hothers other hother)

private theorem keys_eq {fields rivals : List (String × Json)}
    (h : Indiscernible model (.node (.object fields) trait) (.node (.object rivals) trait')) :
    fields.map Prod.fst = rivals.map Prod.fst := by
  have hkeys : ∀ fields : List (String × Json),
      ofList (fields.map fun field => .string field.1) =
        .projection (fields.map fun field => .string field.1) :=
    fun fields => ofList_of_single (List.forall_mem_map.mpr fun _ _ => rfl)
  have hsame : (ofList (fields.map fun field => .string field.1)).same
      (ofList (rivals.map fun field => .string field.1)) = true := h ⟨[.call .keys []]⟩
  rw [hkeys, hkeys] at hsame
  have haligned := List.forall₂_map_left_iff.mp (List.forall₂_map_right_iff.mp
    (sameAll_iff.mp hsame))
  exact Aligned.map_eq haligned fun field rival h => by simpa [Value.same] using h

private theorem same_node (h : Indiscernible model (.node x trait) (.node y trait')) :
    x.same y = true := by
  cases lift_of_same h.same with
  | node hjson => exact hjson

/-- Nodes that no path tells apart are ordered alike: the keys give the order of the fields, and the
wildcard the children. -/
theorem ordered_node (hmodel : model.WellFormed) (hx : x.WellFormed) (hy : y.WellFormed)
    (h : Indiscernible model (.node x trait) (.node y trait')) : x.Ordered y := by
  have hsame := h.same_node
  induction hx generalizing y trait trait' with
  | null =>
    cases y with
    | null => exact .null
    | _ => cases hsame
  | bool b =>
    cases y with
    | bool c =>
      obtain rfl : b = c := by simpa [Json.same] using hsame
      exact .bool b
    | _ => cases hsame
  | number m =>
    cases y with
    | number n => exact .number hsame
    | _ => cases hsame
  | string s =>
    cases y with
    | string t =>
      obtain rfl : s = t := by simpa [Json.same] using hsame
      exact .string s
    | _ => cases hsame
  | @array items hitems ih =>
    obtain ⟨others, rfl, -⟩ := Json.same_array hsame
    cases hy with
    | array hothers =>
      have hchildren := children hmodel hitems hothers (h.apply .wildcard)
      exact .array (Aligned.imp_of_mem hchildren fun item hitem other hother h =>
        ih item hitem (hothers other hother) h h.same_node)
  | @object fields hkeys hfields ih =>
    obtain ⟨rivals, rfl, -⟩ := Json.same_object hkeys hsame
    cases hy with
    | object _ hrivals =>
      have hwildcard : Indiscernible model (ofList ((fields.map Prod.snd).map ofNode))
          (ofList ((rivals.map Prod.snd).map ofNode)) := by
        rw [List.map_map, List.map_map]
        exact h.apply .wildcard
      have hchildren := children hmodel (List.forall_mem_map.mpr hfields)
        (List.forall_mem_map.mpr hrivals) hwildcard
      refine .object h.keys_eq (Aligned.imp_of_mem hchildren fun value hvalue other hother h => ?_)
      obtain ⟨field, hfield, rfl⟩ := List.mem_map.mp hvalue
      obtain ⟨rival, hrival, rfl⟩ := List.mem_map.mp hother
      exact ih field hfield (hrivals rival hrival) h h.same_node

theorem ordered (hmodel : model.WellFormed) (ha : a.WellFormed) (hb : b.WellFormed)
    (h : Indiscernible model a b) : a.Ordered b := by
  have hlift := lift_of_same h.same
  induction ha generalizing b with
  | absent =>
    cases hlift
    exact .absent
  | bool b =>
    cases hlift
    exact .bool b
  | string s =>
    cases hlift
    exact .string s
  | shape id _ =>
    cases hlift with
    | shape _ hbound => exact .shape id hbound
  | node hx =>
    cases hlift with
    | node _ =>
      cases hb with
      | node hy => exact .node (h.ordered_node hmodel hx hy) _
  | projection hxs ih =>
    cases hlift with
    | projection _ =>
      cases hb with
      | projection hys =>
        have helements := h.elements hmodel hxs hys
        exact .projection (Aligned.imp_of_mem helements fun x hx y hy h =>
          ih x hx (hys y hy) h (lift_of_same h.same))

end Indiscernible

/-- Paths give values that are the same for values that are the same, unless they go through the
fields of objects in order. What they give then is the same up to that order. So no path tells the
values apart just when the fields of all their objects are in the same order. -/
theorem evaluate_same_iff_ordered (hmodel : model.WellFormed) (ha : a.WellFormed)
    (hb : b.WellFormed) (h : a.same b = true) :
    (∀ path : Path, Alike (path.evaluate model a) (path.evaluate model b)) ∧
    (∀ path : Path, (∀ segment ∈ path.segments, segment.enumerates = false) →
      (path.evaluate model a).same (path.evaluate model b) = true) ∧
    ((∀ path : Path, (path.evaluate model a).same (path.evaluate model b) = true) ↔
      a.Ordered b) := by
  refine ⟨fun path => evaluate_alike hmodel path ha hb (.same h), fun path hpath => ?_,
    fun h => Indiscernible.ordered hmodel ha hb h, fun h path => ?_⟩
  · refine (evaluate_lift Json.respected_same hmodel path ?_ ha hb (lift_of_same h)).same
    intro segment hsegment x y trait hx hy hxy
    exact segment.applyOne_node_lift Json.respected_same hx hy hxy trait (hpath segment hsegment)
  · have hlift := evaluate_lift Json.respected_ordered hmodel path
      (fun _ _ _ _ trait hx hy hxy => Segment.applyOne_node_ordered hx hy hxy trait) ha hb h
    exact hlift.same_of_respected Json.respected_ordered (wellFormed_evaluate hmodel path ha)
      (wellFormed_evaluate hmodel path hb)

/-- A shape with variables that stand for nothing, and an object with a zero. -/
def zeroBehind (id : ShapeId) (names : List String) (negative : Bool) : Value :=
  .projection [.shape id (some (names.map fun s => (s, []))),
    .ofNode (.object [("k", .number (.double (.zero negative))), ("j", .null)])]

/-- Neither the order of the variables nor the sign of the zero shows. -/
theorem evaluate_same_iff_ordered_zeros : ∃ id : ShapeId, id.text = "a#S" ∧
    let first := zeroBehind id ["x", "y"] false
    let second := zeroBehind id ["y", "x"] true
    Model.empty.WellFormed ∧ first.WellFormed ∧ second.WellFormed ∧ first.same second = true ∧
      ∀ path : Path, (path.evaluate .empty first).same (path.evaluate .empty second) = true := by
  refine ⟨⟨"a", "S", none, rfl, rfl, nofun⟩, rfl, ?_⟩
  intro first second
  have hmodel : Model.empty.WellFormed := by simp [Model.WellFormed, Model.allShapes, Model.empty]
  have hvalue {s t : String} (h : s ≠ t) (id : ShapeId) (negative : Bool) :
      (zeroBehind id [s, t] negative).WellFormed := by
    refine .projection (List.forall_mem_cons.mpr ⟨.shape _ ?_, List.forall_mem_singleton.mpr ?_⟩)
    · simp [Keyed.DistinctKeys, h]
    · refine .node (.object (by simp [Keyed.DistinctKeys]) ?_) none
      simp [Json.WellFormed.number, Json.WellFormed.null]
  have hfirst : first.WellFormed := hvalue (by decide) _ false
  have hsecond : second.WellFormed := hvalue (by decide) _ true
  have hsame : first.same second = true := by decide
  obtain ⟨-, -, hiff⟩ := evaluate_same_iff_ordered hmodel hfirst hsecond hsame
  refine ⟨hmodel, hfirst, hsecond, hsame, hiff.mpr (.projection ?_)⟩
  refine .cons (.shape _ (by decide)) (.cons (.node (.object rfl ?_) none) .nil)
  exact .cons (.number (by decide)) (.cons .null .nil)

/-- Two objects are the same, but their keys are not. -/
theorem keys_differ_of_reordered :
    let first : Value := ofNode (.object [("a", .null), ("b", .null)])
    let second : Value := ofNode (.object [("b", .null), ("a", .null)])
    first.WellFormed ∧ second.WellFormed ∧ first.same second = true ∧
      (evaluate ⟨[.call .keys []]⟩ .empty first).same
        (evaluate ⟨[.call .keys []]⟩ .empty second) = false := by
  intro first second
  have hobject {s t : String} (h : s ≠ t) : (Json.object [(s, .null), (t, .null)]).WellFormed := by
    refine .object (by simp [Keyed.DistinctKeys, h]) ?_
    simp [Json.WellFormed.null]
  exact ⟨wellFormed_ofNode (hobject (by decide)), wellFormed_ofNode (hobject (by decide)),
    by decide, by decide⟩

end ShapeRules.Path
