import ShapeRules.Keyed
import ShapeRules.Number.Binary64

/-!
JSON values. Objects keep the order of their fields, and each key occurs once.
-/

namespace ShapeRules

/-- A number that was written without fraction and exponent and fits 64 bits stays an integer. -/
inductive Number where
  | integer (n : Int)
  | double (x : Binary64)
  deriving DecidableEq, Repr

namespace Number

/-- The integer has so many bits, with or without a sign. -/
def fits (bits : Nat) (n : Int) : Bool :=
  -(Nat.pow 2 (bits - 1) : Nat) ≤ n && n < (Nat.pow 2 bits : Nat)

/-- Integers and doubles are never the same. -/
def same : Number → Number → Bool
  | .integer m, .integer n => m = n
  | .double x, .double y => x.same y
  | _, _ => false

end Number

inductive Json where
  | null
  | bool (b : Bool)
  | number (n : Number)
  | string (s : String)
  | array (items : List Json)
  | object (fields : List (String × Json))
  deriving Repr

namespace Json

instance : Inhabited Json := ⟨.null⟩

def field? (fields : List (String × Json)) (key : String) : Option Json :=
  (Keyed.find? Prod.fst key fields).map Prod.snd

/-- An object with fields put in one after the other. -/
def ofFields (fields : List (String × Json)) : Json :=
  .object (fields.foldl (fun known field => Keyed.put Prod.fst field known) [])

mutual
/-- The values are the same, objects whatever the order of their fields. -/
def same : Json → Json → Bool
  | .null, .null => true
  | .bool a, .bool b => a = b
  | .number m, .number n => m.same n
  | .string s, .string t => s = t
  | .array xs, .array ys => sameItems xs ys
  | .object xs, .object ys => xs.length = ys.length && sameFields xs ys
  | _, _ => false
/-- The lists agree element by element. -/
def sameItems : List Json → List Json → Bool
  | [], [] => true
  | x :: xs, y :: ys => same x y && sameItems xs ys
  | _, _ => false
/-- The second object has every field of the first, with the same value. -/
def sameFields : List (String × Json) → List (String × Json) → Bool
  | [], _ => true
  | (key, x) :: xs, ys =>
    (match field? ys key with
    | some y => same x y
    | none => false) && sameFields xs ys
end

end Json

end ShapeRules
