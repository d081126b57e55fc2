import Timetabling.Number.Text

/-! # JSON values

A JSON document as it is read from a request or written as an answer. Arrays and objects keep
their member order, and an object may repeat a key: the last occurrence is the one a reader sees.
A number keeps the literal text it was written with, so that reading an integer can refuse `3.0`
and a written float keeps its chosen digits. -/

namespace Timetabling

/-- A JSON value. -/
inductive Json where
  | null
  | bool (b : Bool)
  | number (literal : String)
  | string (s : String)
  | array (items : List Json)
  | object (members : List (String × Json))
deriving Inhabited, Repr

namespace Json

/-- An integer, written in decimal. -/
def int (n : Int) : Json := .number (toString n)

/-- A natural number, written in decimal. -/
def nat (n : Nat) : Json := .number (toString n)

/-- A float, written with its shortest decimal. A value that is not finite is kept as the text
`NaN`, `+Inf` or `-Inf`, which no JSON text may hold: writing it is refused. -/
def float (x : Float) : Json :=
  if x.isNaN || x.isInf then .number (FloatText.general x) else .number (FloatText.json x)

/-- The case folding that matches member names: ASCII letters fold with their other case, and
the three letters outside ASCII whose folding is an ASCII letter fold to it: the long s to `s`,
the dotless i to `i` and the Kelvin sign to `k`. -/
def foldChar (c : Char) : Char :=
  if c == Char.ofNat 0x17F then 's'
  else if c == Char.ofNat 0x131 then 'i'
  else if c == Char.ofNat 0x212A then 'k'
  else c.toLower

/-- The folded form of a member name. -/
def foldName (s : String) : String :=
  s.map foldChar

mutual

/-- A value read over an earlier value of the same field, as a reader that decodes each member
in turn into the same place sees it: objects merge, the later members coming after the earlier
ones; arrays merge item by item and take the later array's length; any other value replaces the
earlier one. -/
def overlay : Json → Json → Json
  | .object a, .object b => .object (a ++ b)
  | .array xs, .array ys => .array (overlayItems xs ys)
  | _, v => v

/-- Array items read over earlier items, position by position. -/
def overlayItems : List Json → List Json → List Json
  | x :: xs, y :: ys => overlay x y :: overlayItems xs ys
  | [], ys => ys
  | _ :: _, [] => []

end

/-- The value that a reader of field `name` sees: every member whose key matches the name under
case folding, each read over the ones before it. -/
def field? (j : Json) (name : String) : Option Json :=
  match j with
  | .object members =>
    let key := foldName name
    members.foldl (fun acc (k, v) => if foldName k == key then some ((acc.map (overlay · v)).getD v) else acc)
      none
  | _ => none

/-- Whether the member is present with a value other than `null`. -/
def has (j : Json) (name : String) : Bool :=
  match j.field? name with
  | none | some .null => false
  | some _ => true

/-- An object built from members. -/
def obj (members : List (String × Json)) : Json := .object members

/-- An array built by mapping a list. -/
def list {α : Type} (f : α → Json) (xs : List α) : Json := .array (xs.map f)

/-- An array of strings. -/
def strings (xs : List String) : Json := .array (xs.map .string)

end Json

end Timetabling
