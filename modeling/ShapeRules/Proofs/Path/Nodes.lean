import ShapeRules.Path.Evaluation
import ShapeRules.Proofs.Json.Equality
import ShapeRules.Proofs.Text.Numeral
import ShapeRules.Proofs.Value

/-!
Enumeration and lookup on nodes. Each key of an object finds the child in its place, and an item of
an array is found under the numeral of its index and under no other name.
-/

namespace ShapeRules

open Keyed (DistinctKeys)
open Text (IsNumeral isNumeral_toDigits)

namespace Segment

theorem index?_of_isNumeral {name : String} (h : IsNumeral name.toList) :
    index? name = if Nat.ofDigitChars 10 name.toList 0 < indexLimit then
      some (Nat.ofDigitChars 10 name.toList 0) else none :=
  if_pos ⟨h.nonempty, List.all_eq_true.mpr h.digit, h.noLeadingZero⟩

theorem isNumeral_of_index? {name : String} {i : Nat} (h : index? name = some i) :
    IsNumeral name.toList := by
  by_contra hname
  have hnone : index? name = none :=
    if_neg fun hdigits => hname ⟨hdigits.1, List.all_eq_true.mp hdigits.2.1, hdigits.2.2⟩
  rw [hnone] at h
  cases h

theorem index?_toString (i : Nat) :
    index? (toString i) = if i < indexLimit then some i else none := by
  have hdigits : (toString i).toList = Nat.toDigits 10 i := String.toList_ofList
  rw [index?_of_isNumeral (hdigits ▸ isNumeral_toDigits i), hdigits, Nat.ofDigitChars_ten_toDigits]

/-- The reading of indices inverts decimal printing, as far as indices go. -/
theorem index?_eq_some_iff {name : String} {i : Nat} :
    index? name = some i ↔ i < indexLimit ∧ name = toString i := by
  constructor
  · intro h
    have hname := isNumeral_of_index? h
    rw [index?_of_isNumeral hname] at h
    split at h
    · rename_i hlimit
      cases h
      refine ⟨hlimit, ?_⟩
      rw [← String.toList_inj, Nat.toString_eq_repr, Nat.toList_repr, hname.toDigits_eq]
    · cases h
  · rintro ⟨hlimit, rfl⟩
    rw [index?_toString, if_pos hlimit]

end Segment

namespace Value

theorem ofCount_eq (n : Nat) : ofCount n = .string (toString n) := rfl

/-- What paths enumerate of an object, and what they find in it. -/
structure ListsFields (model : Model) (object : Value) (names : List String)
    (children : List Value) : Prop where
  keys : Path.evaluate ⟨[.call .keys []]⟩ model object = .projection (names.map .string)
  values : Path.evaluate ⟨[.call .values []]⟩ model object = .projection children
  wildcard : Path.evaluate ⟨[.wildcard]⟩ model object = .projection children
  length_eq : names.length = children.length
  length : Path.evaluate ⟨[.call .length []]⟩ model object = .string (toString children.length)
  literal : ∀ name, Path.evaluate ⟨[.literal name]⟩ model object =
    Path.evaluate ⟨[.key name]⟩ model object
  /-- A child is a node whatever it holds, and so never absent. -/
  found : ∀ (i : Nat) (name : String), names[i]? = some name → ∃ json,
    children[i]? = some (.ofNode json) ∧
      Path.evaluate ⟨[.key name]⟩ model object = .ofNode json
  missing : ∀ name, name ∉ names → Path.evaluate ⟨[.key name]⟩ model object = .absent
  has : ∀ name, Path.evaluate ⟨[.call .has [name]]⟩ model object = .bool (decide (name ∈ names))

/-- What paths enumerate of an array, and what they find in it. -/
structure ListsItems (model : Model) (array : Value) (children : List Value) : Prop where
  wildcard : Path.evaluate ⟨[.wildcard]⟩ model array = .projection children
  literal : ∀ name, Path.evaluate ⟨[.literal name]⟩ model array =
    Path.evaluate ⟨[.key name]⟩ model array
  selects_iff : ∀ name, Path.evaluate ⟨[.key name]⟩ model array ≠ .absent ↔
    ∃ i < children.length, i < Segment.indexLimit ∧ name = toString i
  found : ∀ (i : Nat) (child : Value), children[i]? = some child → i < Segment.indexLimit →
    Path.evaluate ⟨[.key (toString i)]⟩ model array = child
  /-- An array of a machine has no more items than there are indices. -/
  selects_iff_of_fits : children.length ≤ Segment.indexLimit → ∀ name,
    Path.evaluate ⟨[.key name]⟩ model array ≠ .absent ↔ ∃ i < children.length, name = toString i
  beyond : ∀ i, Segment.indexLimit ≤ i →
    Path.evaluate ⟨[.key (toString i)]⟩ model array = .absent

variable (model : Model) (trait : Option ShapeId)

theorem listsFields {fields : List (String × Json)} (hkeys : DistinctKeys fields) :
    ListsFields model (.node (.object fields) trait) (fields.map Prod.fst)
      (fields.map fun field => .ofNode field.2) := by
  have hchildren : ofChildren (.object fields) =
      .projection (fields.map fun field => .ofNode field.2) :=
    ofList_of_single (List.forall_mem_map.mpr fun _ _ => rfl)
  have hkey (name : String) : Path.evaluate ⟨[.key name]⟩ model (.node (.object fields) trait) =
      .ofOption ((Json.field? fields name).map .ofNode) := rfl
  have hfield (name : String) : (Json.field? fields name).isSome = true ↔
      name ∈ fields.map Prod.fst := by
    rw [Json.field?, Option.isSome_map, Option.isSome_iff_exists, Keyed.exists_find?_iff]
  refine ⟨?_, hchildren, hchildren, by simp, ?_, fun _ => rfl, ?_, ?_, ?_⟩
  · rw [List.map_map]
    exact ofList_of_single (List.forall_mem_map.mpr fun _ _ => rfl)
  · rw [List.length_map]
    exact ofCount_eq fields.length
  · intro i name hname
    rw [List.getElem?_map] at hname
    obtain ⟨field, hget, rfl⟩ := Option.map_eq_some_iff.mp hname
    refine ⟨field.2, by rw [List.getElem?_map, hget]; rfl, ?_⟩
    rw [hkey, Json.field?_of_mem hkeys (List.mem_of_getElem? hget)]
    rfl
  · intro name hname
    rw [← hfield, Option.not_isSome_iff_eq_none] at hname
    rw [hkey, hname]
    rfl
  · intro name
    have hhas : Path.evaluate ⟨[.call .has [name]]⟩ model (.node (.object fields) trait) =
        .bool (Json.field? fields name).isSome := rfl
    rw [hhas, Bool.eq_iff_iff.mpr ((hfield name).trans decide_eq_true_iff.symm)]

theorem listsItems (items : List Json) :
    ListsItems model (.node (.array items) trait) (items.map .ofNode) := by
  have hkey (name : String) : Path.evaluate ⟨[.key name]⟩ model (.node (.array items) trait) =
      Segment.nodeKey (.array items) name := rfl
  have hfound {i : Nat} (hlimit : i < Segment.indexLimit) :
      Segment.nodeKey (.array items) (toString i) = .ofOption (items[i]?.map .ofNode) := by
    rw [Segment.nodeKey, Segment.index?_toString, if_pos hlimit]
  have hselects (name : String) : Segment.nodeKey (.array items) name ≠ .absent ↔
      ∃ i < (items.map ofNode).length, i < Segment.indexLimit ∧ name = toString i := by
    constructor
    · intro h
      cases hindex : Segment.index? name with
      | none =>
        rw [Segment.nodeKey, hindex] at h
        exact absurd rfl h
      | some i =>
        obtain ⟨hlimit, rfl⟩ := Segment.index?_eq_some_iff.mp hindex
        rw [hfound hlimit] at h
        refine ⟨i, ?_, hlimit, rfl⟩
        by_contra hlength
        rw [List.length_map, Nat.not_lt] at hlength
        rw [List.getElem?_eq_none hlength] at h
        exact h rfl
    · rintro ⟨i, hlength, hlimit, rfl⟩
      rw [List.length_map] at hlength
      rw [hfound hlimit, List.getElem?_eq_getElem hlength]
      exact fun h => by cases h
  refine ⟨?_, fun _ => rfl, fun name => hselects name, ?_, ?_, ?_⟩
  · exact ofList_of_single (List.forall_mem_map.mpr fun _ _ => rfl)
  · intro i child hchild hlimit
    rw [List.getElem?_map] at hchild
    obtain ⟨item, hitem, rfl⟩ := Option.map_eq_some_iff.mp hchild
    rw [hkey, hfound hlimit, hitem]
    rfl
  · intro hfits name
    rw [hkey, hselects]
    constructor
    · rintro ⟨i, hlength, -, hname⟩
      exact ⟨i, hlength, hname⟩
    · rintro ⟨i, hlength, hname⟩
      exact ⟨i, hlength, Nat.lt_of_lt_of_le hlength hfits, hname⟩
  · intro i hi
    rw [hkey, Segment.nodeKey, Segment.index?_toString, if_neg (Nat.not_lt.mpr hi)]

end Value

namespace Path

open Value

/-- What paths enumerate of an object or an array is what they find in it: in an object under its
keys, and in an array under the decimal numerals of its indices. -/
theorem node_lookups_agree (model : Model) (trait : Option ShapeId) :
    (∀ fields : List (String × Json), DistinctKeys fields →
      ListsFields model (.node (.object fields) trait) (fields.map Prod.fst)
        (fields.map fun field => .ofNode field.2)) ∧
    ∀ items : List Json, ListsItems model (.node (.array items) trait) (items.map .ofNode) :=
  ⟨fun _ hkeys => listsFields model trait hkeys, listsItems model trait⟩

/-- A null under a key is found, unlike what stands under no key, and a leading zero selects
nothing. -/
theorem node_lookups_agree_null :
    let fields : List (String × Json) := [("b", .null), ("a", .array [.null, .bool true])]
    let object : Value := .node (.object fields) none
    DistinctKeys fields ∧
      evaluate ⟨[.key "b"]⟩ .empty object = .ofNode .null ∧
      evaluate ⟨[.key "c"]⟩ .empty object = .absent ∧
      evaluate ⟨[.call .keys []]⟩ .empty object = .projection [.string "b", .string "a"] ∧
      evaluate ⟨[.key "1"]⟩ .empty (.ofNode (.array [.null, .bool true])) = .ofNode (.bool true) ∧
      evaluate ⟨[.key "01"]⟩ .empty (.ofNode (.array [.null, .bool true])) = .absent := by
  intro fields object
  have hkeys : DistinctKeys fields := by simp [DistinctKeys, fields]
  obtain ⟨hobject, harray⟩ := node_lookups_agree .empty none
  have hfields := hobject fields hkeys
  have hitems := harray [.null, .bool true]
  obtain ⟨json, hchild, hb⟩ := hfields.found 0 "b" rfl
  obtain rfl : Json.null = json := by cases hchild; rfl
  refine ⟨hkeys, hb, hfields.missing "c" (by decide), hfields.keys, ?_, rfl⟩
  exact hitems.found 1 _ rfl (by decide)

end Path

end ShapeRules
