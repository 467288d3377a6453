import ShapeRules.Json.Basic

/-!
Reading the numbers of JSON texts.
-/

namespace ShapeRules

/-- The spelling of a number. -/
structure Numeral where
  negative : Bool
  whole : List Char
  /-- The digits behind the point, if there is one. -/
  fraction : Option (List Char)
  /-- Whether the exponent is negative, and its digits. -/
  exponent : Option (Bool × List Char)
  deriving DecidableEq, Repr

namespace Numeral

/-- Digits at the beginning of a text, at least one. -/
def digits (text : List Char) : Option (List Char × List Char) :=
  match text.takeWhile Char.isDigit with
  | [] => none
  | ds => some (ds, text.dropWhile Char.isDigit)

/-- The whole part: zero stands alone. -/
def readWhole (text : List Char) : Option (List Char × List Char) :=
  match digits text with
  | some (['0'], rest) => some (['0'], rest)
  | some ('0' :: _, _) => none
  | other => other

/-- The fraction, if a point begins it. -/
def readFraction : List Char → Option (Option (List Char) × List Char)
  | '.' :: rest => (digits rest).map fun (ds, rest) => (some ds, rest)
  | rest => some (none, rest)

/-- The exponent, if its letter begins it. -/
def readExponent : List Char → Option (Option (Bool × List Char) × List Char)
  | [] => some (none, [])
  | c :: rest =>
    if c = 'e' ∨ c = 'E' then
      let (negative, rest) :=
        match rest with
        | '+' :: rest => (false, rest)
        | '-' :: rest => (true, rest)
        | rest => (false, rest)
      (digits rest).map fun (ds, rest) => (some (negative, ds), rest)
    else some (none, c :: rest)

/-- The numeral at the beginning of a text and the text behind it. -/
def read (text : List Char) : Option (Numeral × List Char) := do
  let (negative, rest) :=
    match text with
    | '-' :: rest => (true, rest)
    | rest => (false, rest)
  let (whole, rest) ← readWhole rest
  let (fraction, rest) ← readFraction rest
  let (exponent, rest) ← readExponent rest
  return (⟨negative, whole, fraction, exponent⟩, rest)

theorem digits_length {text ds rest : List Char} (h : digits text = some (ds, rest)) :
    rest.length < text.length := by
  unfold digits at h
  split at h
  · simp at h
  · rename_i taken
    have split := congrArg List.length
      (List.takeWhile_append_dropWhile (p := Char.isDigit) (l := text))
    have : 0 < (text.takeWhile Char.isDigit).length := by
      rw [List.length_pos_iff]
      exact taken
    simp only [Option.some.injEq, Prod.mk.injEq] at h
    simp only [List.length_append, ← h.2] at split ⊢
    omega

theorem readWhole_length {text ds rest : List Char} (h : readWhole text = some (ds, rest)) :
    rest.length < text.length := by
  unfold readWhole at h
  split at h
  · rename_i whole
    simp only [Option.some.injEq, Prod.mk.injEq] at h
    exact h.2 ▸ digits_length whole
  · simp at h
  · exact digits_length h

theorem readFraction_length {text rest : List Char} {ds : Option (List Char)}
    (h : readFraction text = some (ds, rest)) : rest.length ≤ text.length := by
  unfold readFraction at h
  split at h
  · simp only [Option.map_eq_some_iff, Prod.exists, Prod.mk.injEq] at h
    obtain ⟨_, behind, read, _, rfl⟩ := h
    have := digits_length read
    grind
  · grind

theorem readExponent_length {text rest : List Char} {ds : Option (Bool × List Char)}
    (h : readExponent text = some (ds, rest)) : rest.length ≤ text.length := by
  unfold readExponent at h
  split at h
  · grind
  · split at h
    · simp only [Option.map_eq_some_iff, Prod.exists, Prod.mk.injEq] at h
      obtain ⟨_, behind, read, _, rfl⟩ := h
      have := digits_length read
      split at this <;> grind
    · grind

/-- A numeral holds at least one digit. -/
theorem read_length {text rest : List Char} {numeral : Numeral}
    (h : read text = some (numeral, rest)) : rest.length < text.length := by
  simp only [read, Option.bind_eq_bind, Option.bind_eq_some_iff, Option.pure_def,
    Option.some.injEq, Prod.exists, Prod.mk.injEq] at h
  obtain ⟨_, _, whole, _, _, fraction, _, _, exponent, _, rfl⟩ := h
  have := readWhole_length whole
  have := readFraction_length fraction
  have := readExponent_length exponent
  split at whole <;> grind

/-- The number that digits denote. -/
def valueOf (ds : List Char) : Nat :=
  ds.foldl (fun n d => 10 * n + (d.toNat - '0'.toNat)) 0

/-- The power of ten that an exponent denotes. -/
def power : Option (Bool × List Char) → Int
  | none => 0
  | some (true, ds) => -(valueOf ds : Int)
  | some (false, ds) => valueOf ds

def greatestWord : Nat := Nat.pow 2 64 - 1

/-- Appends digits to a coefficient until one does not fit 64 bits, and counts those left over. -/
def gather (coefficient : Nat) : List Char → Nat × Nat
  | [] => (coefficient, 0)
  | d :: ds =>
    let longer := 10 * coefficient + (d.toNat - '0'.toNat)
    if longer ≤ greatestWord then gather longer ds else (coefficient, ds.length + 1)

/-- Scales by a power of ten in rounded steps, each by at most `10 ^ 308`. -/
def scale? (x : Binary64) (power : Int) : Option Binary64 :=
  if power.natAbs ≤ 308 then do
    let ten ← Binary64.ofDecimal? 1 power.natAbs
    if 0 ≤ power then x.mul? ten else x.div? ten
  else if x.mantissa = 0 then some x
  else if 0 ≤ power then none
  else do
    let ten ← Binary64.ofDecimal? 1 308
    scale? (← x.div? ten) (power + 308)
termination_by power.natAbs

/-- The double that the spelling denotes: the leading digits that fit 64 bits, scaled. Nothing if
that is out of range. -/
def double? (numeral : Numeral) : Option Binary64 := do
  let fraction := numeral.fraction.getD []
  let (coefficient, dropped) := gather 0 numeral.whole
  let (coefficient, cut) := gather coefficient fraction
  let start ← Binary64.ofRatio? coefficient 1
  let x ← scale? start (dropped - (fraction.length - cut : Nat) + power numeral.exponent)
  return if numeral.negative then x.negate else x

/-- The integer that the spelling denotes, unless it is written as a double. A negative zero is. -/
def integer? (numeral : Numeral) : Option Int :=
  let n := valueOf numeral.whole
  if numeral.fraction.isSome ∨ numeral.exponent.isSome ∨ (numeral.negative ∧ n = 0) then none
  else some (if numeral.negative then -n else n)

/-- The number that the spelling denotes. Integers of more than 64 bits become doubles. -/
def value? (numeral : Numeral) : Option Number :=
  match numeral.integer?.filter (Number.fits 64) with
  | some n => some (.integer n)
  | none => numeral.double?.map .double

end Numeral

end ShapeRules
