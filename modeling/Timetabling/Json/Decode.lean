import Timetabling.Json.Basic
import Timetabling.Number.Nearest

/-! # Reading typed fields from JSON

A field has a fixed type, and a value of another kind is refused. `null` and a missing member
read as the type's zero value (`0`, `""`, `false`, empty). A machine integer accepts only a
number written without point or exponent that fits its range; an unsigned one refuses a minus
sign. A float accepts any number whose value is finite, rounded to the nearest double. -/

namespace Timetabling

/-- A JSON value could not be read as the expected type. -/
structure DecodeError where
  /-- The kind of value found: `string`, `number` with its text, `bool`, `array` or `object`. -/
  found : String
  /-- The type that was expected. -/
  expected : String
deriving Repr, Inhabited

namespace Json

/-- The description of a value in a decoding error. -/
def kindName : Json → String
  | .null => "null"
  | .bool _ => "bool"
  | .number lit => "number " ++ lit
  | .string _ => "string"
  | .array _ => "array"
  | .object _ => "object"

/-- Refuse a value as the given type. -/
def refuse {α : Type} (j : Json) (expected : String) : Except DecodeError α :=
  .error ⟨j.kindName, expected⟩

/-- Whether a literal is written as a plain integer. -/
def isIntegerLiteral (lit : String) : Bool :=
  lit.toList.all fun c => c.isDigit || c == '-'

/-- The number written by decimal digits, which single underscores may group, read as
`String.toNat?` reads it; `none` for any other text. -/
def decimalValue? (cs : List Char) : Option Nat :=
  go cs false 0
where
  /-- The digits left, whether the last character was a digit, and the value so far. -/
  go : List Char → Bool → Nat → Option Nat
    | [], afterDigit, n => if afterDigit then some n else none
    | c :: rest, afterDigit, n =>
      if c = '_' then (if afterDigit then go rest false n else none)
      else if c.isDigit then go rest true (n * 10 + (c.toNat - '0'.toNat))
      else none

/-- The integer written by a plain integer literal. -/
def integerValue (lit : String) : Int :=
  match lit.toList with
  | '-' :: ds => -((decimalValue? ds).getD 0 : Int)
  | ds => ((decimalValue? ds).getD 0 : Int)

/-- A signed machine integer of the given width. -/
def asIntOf (bits : Nat) (name : String) (j : Json) : Except DecodeError Int :=
  match j with
  | .null => pure 0
  | .number lit =>
    if isIntegerLiteral lit then
      let v := integerValue lit
      if -(Int.pow 2 (bits - 1)) ≤ v ∧ v < Int.pow 2 (bits - 1) then pure v else j.refuse name
    else j.refuse name
  | _ => j.refuse name

/-- A 64-bit signed integer. -/
def asInt (j : Json) : Except DecodeError Int := asIntOf 64 "int" j

/-- A 64-bit unsigned integer. -/
def asUInt64 (j : Json) : Except DecodeError Nat :=
  match j with
  | .null => pure 0
  | .number lit =>
    if isIntegerLiteral lit && !lit.startsWith "-" then
      let v := (integerValue lit).toNat
      if v < Nat.pow 2 64 then pure v else j.refuse "uint64"
    else j.refuse "uint64"
  | _ => j.refuse "uint64"

/-- The parts of a number literal: sign, significant digits and decimal exponent. -/
def literalParts (lit : String) : Bool × Nat × Int :=
  let cs := lit.toList
  let (neg, cs) := match cs with
    | '-' :: r => (true, r)
    | r => (false, r)
  let mant := cs.takeWhile fun c => c != 'e' && c != 'E'
  let expPart := (cs.dropWhile fun c => c != 'e' && c != 'E').drop 1
  let whole := mant.takeWhile (· != '.')
  let frac := (mant.dropWhile (· != '.')).drop 1
  let digits := (decimalValue? (whole ++ frac)).getD 0
  let e : Int := match expPart with
    | '+' :: ds => ((decimalValue? ds).getD 0 : Int)
    | '-' :: ds => -((decimalValue? ds).getD 0 : Int)
    | ds => ((decimalValue? ds).getD 0 : Int)
  (neg, digits, e - frac.length)

/-- The double nearest to a decimal, or `none` when it lies beyond the largest double. -/
def decimalToFloat (neg : Bool) (digits : Nat) (e : Int) : Option Float :=
  Nearest.decimal neg digits e

/-- A 64-bit float. -/
def asFloat (j : Json) : Except DecodeError Float :=
  match j with
  | .null => pure 0.0
  | .number lit =>
    let (neg, digits, e) := literalParts lit
    match decimalToFloat neg digits e with
    | some x => pure x
    | none => j.refuse "float64"
  | _ => j.refuse "float64"

/-- A boolean. -/
def asBool (j : Json) : Except DecodeError Bool :=
  match j with
  | .null => pure false
  | .bool b => pure b
  | _ => j.refuse "bool"

/-- A string. -/
def asString (j : Json) : Except DecodeError String :=
  match j with
  | .null => pure ""
  | .string s => pure s
  | _ => j.refuse "string"

/-- A list whose items are read by `f`. -/
def asList {α : Type} (f : Json → Except DecodeError α) (j : Json) : Except DecodeError (List α) :=
  match j with
  | .null => pure []
  | .array items => items.mapM f
  | _ => j.refuse "slice"

/-- Drop earlier entries whose key occurs again later, keeping first-occurrence order. -/
def lastWins {α : Type} (entries : List (String × α)) : List (String × α) :=
  entries.foldl (fun acc (k, v) =>
    if acc.any (·.1 == k) then acc.map (fun (k', v') => if k' == k then (k', v) else (k', v'))
    else acc ++ [(k, v)]) []

/-- A string-keyed map whose values are read by `f`; a repeated key keeps its last value. -/
def asMap {α : Type} (f : Json → Except DecodeError α) (j : Json) :
    Except DecodeError (List (String × α)) :=
  match j with
  | .null => pure []
  | .object members => do
    let entries ← members.mapM fun (k, v) => do pure (k, ← f v)
    pure (lastWins entries)
  | _ => j.refuse "map"

/-- A record: an object, or `null` for the zero record. -/
def asRecord (j : Json) : Except DecodeError Json :=
  match j with
  | .null => pure (.object [])
  | .object _ => pure j
  | _ => j.refuse "struct"

/-- Read member `name` of a record with `f`; a missing member reads as `null`. -/
def get {α : Type} (j : Json) (name : String) (f : Json → Except DecodeError α) :
    Except DecodeError α :=
  f ((j.field? name).getD .null)

/-- Read member `name` of a record with `f`, or `none` if it is missing or `null`. -/
def getOpt {α : Type} (j : Json) (name : String) (f : Json → Except DecodeError α) :
    Except DecodeError (Option α) :=
  match j.field? name with
  | none | some .null => pure none
  | some v => some <$> f v

end Json

end Timetabling
