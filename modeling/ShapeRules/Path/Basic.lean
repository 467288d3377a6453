/-!
Paths: what a scoped attribute asks of a shape, as a sequence of segments.
-/

namespace ShapeRules

/-- The accessors that a path can call. -/
inductive Accessor where
  /-- The applied trait that the argument names. -/
  | trait
  /-- The shapes that a selector bound to the argument. -/
  | var
  /-- The member that the argument names. -/
  | member
  /-- The ids of the applied traits, or the keys of an object. -/
  | keys
  /-- The applied traits, or the children of a container. -/
  | values
  /-- The number of members, characters or children. -/
  | length
  | id
  | name
  | nameSpace
  /-- Whether a shape has a trait, or an object a key. -/
  | has
  deriving DecidableEq, Repr

namespace Accessor

/-- Every accessor, in the order in which error messages list them. -/
def all : List Accessor :=
  [trait, var, member, keys, values, length, id, name, nameSpace, has]

def word : Accessor → String
  | trait => "trait"
  | var => "var"
  | member => "member"
  | keys => "keys"
  | values => "values"
  | length => "length"
  | id => "id"
  | name => "name"
  | nameSpace => "namespace"
  | has => "has"

/-- The number of arguments that a call takes. -/
def arity : Accessor → Nat
  | trait | var | member | has => 1
  | keys | values | length | id | name | nameSpace => 0

/-- The accessor that a word calls. -/
def ofWord? (word : String) : Option Accessor :=
  all.find? fun accessor => accessor.word = word

theorem mem_all (accessor : Accessor) : accessor ∈ all := by
  cases accessor <;> decide

theorem word_injective {a b : Accessor} (h : a.word = b.word) : a = b := by
  cases a <;> cases b <;> first | rfl | exact absurd h (by decide)

theorem ofWord?_word (accessor : Accessor) : ofWord? accessor.word = some accessor := by
  cases accessor <;> decide

end Accessor

/-- One step of a path. -/
inductive Segment where
  /-- A facet, member or trait of a shape, or a key of an object. -/
  | key (name : String)
  /-- Every element of a container. -/
  | wildcard
  | call (accessor : Accessor) (arguments : List String)
  /-- A key written in square brackets, which may hold any character but the closing one. -/
  | literal (text : String)
  deriving DecidableEq, Repr

/-- The segments are applied from left to right. -/
structure Path where
  segments : List Segment
  deriving DecidableEq, Repr

namespace Path

/-- A character of a bare key or an accessor's word. -/
def isWordChar (c : Char) : Bool :=
  c.isAlphanum || c = '_'

end Path

end ShapeRules
