/-!
The kinds of shapes.
-/

namespace ShapeRules

inductive Kind where
  | blob | boolean | string | byte | short | integer | intEnum | long | float | double
  | bigInteger | bigDecimal | timestamp | document | enum | list | set | map
  | record | union | member | service | operation | resource
  deriving DecidableEq, Repr

namespace Kind

def all : List Kind :=
  [blob, boolean, string, byte, short, integer, intEnum, long, float, double, bigInteger,
    bigDecimal, timestamp, document, enum, list, set, map, record, union, member, service,
    operation, resource]

def name : Kind → String
  | blob => "blob"
  | boolean => "boolean"
  | string => "string"
  | byte => "byte"
  | short => "short"
  | integer => "integer"
  | intEnum => "intEnum"
  | long => "long"
  | float => "float"
  | double => "double"
  | bigInteger => "bigInteger"
  | bigDecimal => "bigDecimal"
  | timestamp => "timestamp"
  | document => "document"
  | enum => "enum"
  | list => "list"
  | set => "set"
  | map => "map"
  | record => "structure"
  | union => "union"
  | member => "member"
  | service => "service"
  | operation => "operation"
  | resource => "resource"

def ofName? (name : String) : Option Kind :=
  all.find? fun kind => kind.name = name

theorem ofName?_name (kind : Kind) : ofName? kind.name = some kind := by
  cases kind <;> decide

theorem name_of_ofName? {name : String} {kind : Kind} (h : ofName? name = some kind) :
    kind.name = name := by
  simpa using List.find?_some h

end Kind

end ShapeRules
