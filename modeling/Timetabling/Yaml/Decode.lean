import Timetabling.Yaml.Node
import Timetabling.Text.Base64
import Timetabling.Text.Bytes
import Timetabling.Json.Basic
import Timetabling.Number.Truncate
import Timetabling.Text.Duration
import Timetabling.Text.Quoted

/-! # Decoding YAML into typed records

A document is decoded against a `Shape`, the type of the record it should fill; the result is
the record's JSON form, with every field present. Decoding is forgiving in the way of typed
configuration readers: a mapping key that is not a field is ignored, a missing field keeps its
value, and a value of the wrong type is reported and leaves the value in place, while decoding
goes on. All reports are returned together, in the order they were found. A few faults stop
decoding at once instead: a tag that disagrees with its scalar, bad base64 under `!!binary`, an
alias inside its own anchor, a merge of something other than mappings, and a document that
aliases expand far beyond its size.

The conversions a scalar admits:

* text: any scalar, as written (binary text decoded);
* integers: an integer in the signed 64-bit range, or a float not above 2⁶³ with its fraction
  dropped;
* durations: only text, read as a duration;
* booleans: `true`/`false` and the older spellings `y`, `yes`, `on`, `n`, `no`, `off`;
* floats: any integer or float.

A null scalar sets a list or a dictionary to null and leaves anything else alone. A list is
rebuilt from the items that decode. A record decodes each field onto its current value; a
dictionary keeps its entries and adds or replaces those of the mapping, an entry whose value
fails being dropped unless it is null and new. A mapping that repeats a key is reported once per
repetition and changes nothing.

The key `<<` merges mappings into its mapping after the mapping's own keys: a key already set,
by the mapping itself or by an earlier merged mapping, is not set again. -/

namespace Timetabling

/-- The type a YAML node is decoded into. The names are the type names reports use. -/
inductive Shape where
  /-- A signed 64-bit integer. -/
  | int
  /-- A span of time, in nanoseconds. -/
  | duration
  /-- A truth value. -/
  | bool
  /-- A double-precision float. -/
  | float
  /-- Text, of a named text type. -/
  | text (name : String)
  /-- A list of items. -/
  | list (item : Shape) (name : String)
  /-- A dictionary from text keys, of the named key type, to values. -/
  | dict (key : String) (value : Shape) (name : String)
  /-- A record with named fields. -/
  | record (name : String) (fields : List (String × Shape))
deriving Repr, Inhabited

namespace Shape

/-- The type name of a shape. -/
def name : Shape → String
  | .int => "int"
  | .duration => "time.Duration"
  | .bool => "bool"
  | .float => "float64"
  | .text n | .list _ n | .dict _ _ n | .record n _ => n

mutual

/-- The zero value of a shape: zero, false, empty text, null collections, and records of zero
fields. -/
def zero : Shape → Json
  | .int | .duration => .int 0
  | .bool => .bool false
  | .float => .int 0
  | .text _ => .string ""
  | .list _ _ | .dict _ _ _ => .null
  | .record _ fields => .object (zeroFields fields)

/-- The zero values of a record's fields. -/
def zeroFields : List (String × Shape) → List (String × Json)
  | [] => []
  | (k, s) :: rest => (k, zero s) :: zeroFields rest

end

end Shape

namespace Yaml

/-- A scalar as a report shows it: in backquotes after a space, cut to seven bytes and an
ellipsis when it is longer than ten bytes. A character cut in the middle shows one replacement
character per byte kept. -/
def shownValue (v : String) : String :=
  if v.utf8ByteSize ≤ 10 then " `" ++ v ++ "`"
  else
    let (kept, _, cut) := v.toList.foldl (fun (acc : List Char × Nat × Nat) c =>
      let (kept, used, cut) := acc
      if cut > 0 || used ≥ 7 then acc
      else if used + c.utf8Size ≤ 7 then (c :: kept, used + c.utf8Size, 0)
      else (kept, used, 7 - used)) ([], 0, 0)
    " `" ++ String.ofList kept.reverse ++ String.ofList (List.replicate cut (Char.ofNat 0xfffd)) ++ "...`"

/-- The report that a node cannot be decoded into a type. Under a sequence or mapping tag the
node's text is shown bare, which for a collection is nothing. -/
def typeError (n : Node) (target : String) : String :=
  let shown := if n.tag == "!!seq" || n.tag == "!!map" then n.text else shownValue n.text
  "line " ++ toString n.line ++ ": cannot unmarshal " ++ n.tag ++ shown ++ " into " ++ target

/-- One report for each key that repeats an earlier key of the same mapping (same kind and same
text), for every earlier occurrence, in order. -/
def duplicateKeys (doc : Document) (entries : List (Nat × Nat)) : List String :=
  let rec go : List Node → List String
    | [] => []
    | k :: rest =>
      (rest.filter fun k2 => k2.kindIndex == k.kindIndex && k2.text == k.text).map (fun k2 =>
        "line " ++ toString k2.line ++ ": mapping key " ++ Text.quoted k2.text ++
          " already defined at line " ++ toString k.line) ++ go rest
  go (entries.map fun e => doc.node e.1)

/-- The spellings of truth values that a boolean also accepts as text. -/
def oldBool? : String → Option Bool
  | "y" | "Y" | "yes" | "Yes" | "YES" | "on" | "On" | "ON" => some true
  | "n" | "N" | "no" | "No" | "NO" | "off" | "Off" | "OFF" => some false
  | _ => none

/-- A mapping key as merging remembers it: the value an untyped decoding gives it. Text carries
the name of its type, so that keys of different types never match. -/
inductive KeyValue where
  | text (type value : String)
  | int (n : Int)
  | uint (n : Nat)
  | float (x : Float)
  | bool (b : Bool)
  | null
deriving BEq

/-- The state of a decoding: the reports so far, the nodes visited (in all and through aliases),
how many aliases are being followed and which, and the keys already set while merging. -/
structure DecodeState where
  reports : Array String := #[]
  visits : Nat := 0
  aliasVisits : Nat := 0
  aliasDepth : Nat := 0
  following : List Nat := []
  merged : Option (List KeyValue) := none

/-- Decoding: state, and a message that stops it. -/
abbrev Decoding := ExceptT String (StateM DecodeState)

/-- Record a report. -/
def report (msg : String) : Decoding Unit :=
  modify fun st => { st with reports := st.reports.push msg }

/-- The largest share of visits through aliases a decoding of so many visits may make: 99% up
to 400000 visits, falling evenly to 10% at 4000000. -/
def allowedAliasRatio (visits : Nat) : Float :=
  if visits ≤ 400000 then 0.99
  else if visits ≥ 4000000 then 0.10
  else 0.99 - 0.89 * ((visits - 400000).toFloat / 3600000.0)

/-- Count a visit to a node, stopping a decoding that aliases have expanded too far. -/
def tally : Decoding Unit := do
  modify fun st => { st with
    visits := st.visits + 1
    aliasVisits := if st.aliasDepth > 0 then st.aliasVisits + 1 else st.aliasVisits }
  let st ← get
  if st.aliasVisits > 100 && st.visits > 1000 &&
      st.aliasVisits.toFloat / st.visits.toFloat > allowedAliasRatio st.visits then
    throw "document contains excessive aliasing"

/-- Start following an alias, unless it is already being followed: an anchor whose value holds
an alias to itself. -/
def follow (i : Nat) (name : String) : Decoding Unit := do
  if (← get).following.contains i then throw ("anchor '" ++ name ++ "' value contains itself")
  modify fun st => { st with following := i :: st.following, aliasDepth := st.aliasDepth + 1 }

/-- Stop following an alias. -/
def unfollow (i : Nat) : Decoding Unit :=
  modify fun st => { st with following := st.following.erase i, aliasDepth := st.aliasDepth - 1 }

/-- What a scalar node stands for, with its resolved tag; text under `!!binary` is decoded. -/
def scalarMeaning (n : Node) (v : String) : Decoding (String × Resolved) := do
  if n.isText then return ("!!str", .str v)
  match resolve n.tag v with
  | .error m => throw m
  | .ok (tag, r) =>
    if tag == "!!binary" then
      let s := match r with
        | .str s => s
        | _ => v
      match Base64.decode? s with
      | some bytes => return (tag, .str (Text.ofBytesLossy bytes))
      | none => throw "!!binary value contains invalid base64 data"
    else return (tag, r)

/-- Decode a scalar node into a shape: the new value and whether it was set. -/
def decodeScalar (shape : Shape) (n : Node) (v : String) (cur : Json) : Decoding (Json × Bool) := do
  let (_, r) ← scalarMeaning n v
  let refuse : Decoding (Json × Bool) := do
    report (typeError n shape.name)
    pure (cur, false)
  match r with
  | .null =>
    match shape with
    | .list _ _ | .dict _ _ _ => pure (.null, true)
    | _ => pure (cur, false)
  | _ =>
    match shape, r with
    | .text _, .str s => pure (.string s, true)
    | .text _, _ => pure (.string v, true)
    | .int, .int k => pure (.int k, true)
    | .int, .float x =>
      if x ≤ 9223372036854775807.0 then pure (.int (truncToInt64 x), true) else refuse
    | .duration, .str t =>
      match Duration.parse? t with
      | some d => pure (.int d, true)
      | none => refuse
    | .bool, .bool b => pure (.bool b, true)
    | .bool, .str t =>
      match oldBool? t with
      | some b => pure (.bool b, true)
      | none => refuse
    | .float, .int k => pure (Json.float (Float.ofInt k), true)
    | .float, .uint k => pure (Json.float (Float.ofNat k), true)
    | .float, .float x => pure (Json.float x, true)
    | _, _ => refuse

/-- Decode a mapping key without a type, as merging remembers it: `none` for a collection. -/
def untypedKey (doc : Document) : Nat → Nat → Decoding (Option KeyValue)
  | 0, _ => pure none
  | fuel + 1, i => do
    tally
    let n := doc.node i
    match n.body with
    | .alias name target =>
      follow i name
      let r ← untypedKey doc fuel target
      unfollow i
      pure r
    | .scalar v _ =>
      let (_, r) ← scalarMeaning n v
      pure <| some <| match r with
        | .null => .null
        | .bool b => .bool b
        | .int k => .int k
        | .uint k => .uint k
        | .float x => .float x
        | .timestamp => .text "string" v
        | .str s => .text "string" s
    | _ => pure none

/-- Replace the value of a member of an object. -/
def setMember (members : List (String × Json)) (key : String) (v : Json) : List (String × Json) :=
  members.map fun (k, old) => if k == key then (k, v) else (k, old)

/-- Set a dictionary entry: replace its value if the key is present, else add it at the end. -/
def putMember (members : List (String × Json)) (key : String) (v : Json) : List (String × Json) :=
  if members.any (·.1 == key) then setMember members key v else members ++ [(key, v)]

/-- The text a decoded key holds. -/
def keyText : Json → String
  | .string s => s
  | _ => ""

/-- Whether a node may be merged: a mapping, or an alias of one. -/
def mergeable (doc : Document) (i : Nat) : Bool :=
  match (doc.node i).body with
  | .mapping _ => true
  | .alias _ t =>
    match (doc.node t).body with
    | .mapping _ => true
    | _ => false
  | _ => false

/-- The message of a merge of something other than mappings. -/
def mergeRefused : String := "map merge requires map or sequence of maps as the value"

mutual

/-- Decode a node into a shape, onto the current value: the new value and whether it was set. -/
def decode (doc : Document) : Nat → Shape → Nat → Json → Decoding (Json × Bool)
  | 0, _, _, cur => pure (cur, false)
  | fuel + 1, shape, i, cur => do
    tally
    let n := doc.node i
    match n.body with
    | .alias name target =>
      follow i name
      let r ← decode doc fuel shape target cur
      unfollow i
      pure r
    | .scalar v _ => decodeScalar shape n v cur
    | .sequence items =>
      match shape with
      | .list item _ =>
        let values ← items.filterMapM fun j => do
          let (e, good) ← decode doc fuel item j item.zero
          pure (if good then some e else none)
        pure (.array values, true)
      | _ =>
        report (typeError n shape.name)
        pure (cur, false)
    | .mapping entries =>
      let repeated := duplicateKeys doc entries
      if !repeated.isEmpty then
        modify fun st => { st with reports := st.reports ++ repeated.toArray }
        return (cur, false)
      match shape with
      | .record name fields =>
        let members := match cur with
          | .object ms => ms
          | _ => Shape.zeroFields fields
        let members ← decodeRecord doc fuel name fields entries members
        pure (.object members, true)
      | .dict keyType valueShape _ =>
        let value ← decodeDict doc fuel shape keyType valueShape entries cur
        pure (value, true)
      | _ =>
        report (typeError n shape.name)
        pure (cur, false)

/-- Decode the entries of a mapping into a record's members. Keys that are not fields are
passed over, a field set twice is reported, and a merge key's value is merged last. -/
def decodeRecord (doc : Document) : Nat → String → List (String × Shape) → List (Nat × Nat) →
    List (String × Json) → Decoding (List (String × Json))
  | 0, _, _, _, members => pure members
  | fuel + 1, name, fields, entries, members => do
    let seen ← (·.merged) <$> get
    modify fun st => { st with merged := none }
    let mut members := members
    let mut seen := seen
    let mut done : List String := []
    let mut mergeNode : Option Nat := none
    for (k, v) in entries do
      let kn := doc.node k
      if kn.isMergeKey then
        mergeNode := some v
        continue
      let (key, good) ← decode doc fuel (.text "string") k (.string "")
      if !good then continue
      let field := keyText key
      if let some ks := seen then
        if ks.contains (.text "string" field) then continue
        seen := some (ks ++ [.text "string" field])
      match fields.lookup field with
      | none => pure ()
      | some fieldShape =>
        if done.contains field then
          report ("line " ++ toString kn.line ++ ": field " ++ field ++ " already set in type " ++ name)
        else
          done := field :: done
          let (value, _) ← decode doc fuel fieldShape v ((members.lookup field).getD fieldShape.zero)
          members := setMember members field value
    modify fun st => { st with merged := seen }
    match mergeNode with
    | none => pure members
    | some m =>
      match ← mergeInto doc fuel (.record name fields) entries m (.object members) with
      | .object ms => pure ms
      | _ => pure members

/-- Decode the entries of a mapping into a dictionary. An entry whose value fails is dropped,
unless the value is null and the dictionary new or without the key; a merge key's value is
merged last. -/
def decodeDict (doc : Document) : Nat → Shape → String → Shape → List (Nat × Nat) → Json →
    Decoding Json
  | 0, _, _, _, _, cur => pure cur
  | fuel + 1, shape, keyType, valueShape, entries, cur => do
    let seen ← (·.merged) <$> get
    modify fun st => { st with merged := none }
    let isNew := match cur with
      | .object _ => false
      | _ => true
    let mut members := match cur with
      | .object ms => ms
      | _ => []
    let mut seen := seen
    let mut mergeNode : Option Nat := none
    for (k, v) in entries do
      if (doc.node k).isMergeKey then
        mergeNode := some v
        continue
      let (key, good) ← decode doc fuel (.text keyType) k (.string "")
      if !good then continue
      let key := keyText key
      if let some ks := seen then
        if ks.contains (.text keyType key) then continue
        seen := some (ks ++ [.text keyType key])
      let (value, ok) ← decode doc fuel valueShape v valueShape.zero
      if ok || (doc.shortTagOf v == "!!null" && (isNew || !members.any (·.1 == key))) then
        members := putMember members key value
    modify fun st => { st with merged := seen }
    match mergeNode with
    | none => pure (.object members)
    | some m => mergeInto doc fuel shape entries m (.object members)

/-- Merge the value of a merge key into the value of its mapping: a mapping, an alias of one, or
a sequence of those, in order. Keys the mapping already set, or an earlier merge did, are not set
again; the keys of the mapping itself are first taken down, untyped, unless an enclosing merge is
already keeping count. -/
def mergeInto (doc : Document) : Nat → Shape → List (Nat × Nat) → Nat → Json → Decoding Json
  | 0, _, _, _, cur => pure cur
  | fuel + 1, shape, parentEntries, m, cur => do
    let saved ← (·.merged) <$> get
    if saved.isNone then
      modify fun st => { st with merged := some [] }
      for (k, _) in parentEntries do
        if let some kv ← untypedKey doc (doc.nodes.size + 1) k then
          modify fun st => { st with merged := st.merged.map (· ++ [kv]) }
    let cur ← match (doc.node m).body with
      | .mapping _ | .alias _ _ =>
        if !mergeable doc m then throw mergeRefused
        Prod.fst <$> decode doc fuel shape m cur
      | .sequence items =>
        items.foldlM (fun cur j => do
          if !mergeable doc j then throw mergeRefused
          Prod.fst <$> decode doc fuel shape j cur) cur
      | _ => throw mergeRefused
    modify fun st => { st with merged := saved }
    pure cur

end

/-- Why a document could not be decoded. -/
inductive DecodeFailure where
  /-- The text is not YAML, or decoding stopped: the message says why. -/
  | aborted (message : String)
  /-- Some values did not fit their types. -/
  | types (reports : List String)
deriving Repr

/-- The message of a decoding failure. -/
def DecodeFailure.message : DecodeFailure → String
  | .aborted m => m
  | .types rs => "yaml: unmarshal errors:" ++ String.join (rs.map ("\n  " ++ ·))

/-- A bound on the depth of a decoding: an alias can be followed at most once along a path, so
a path visits each node at most once per alias, and each step takes at most two units. -/
def decodingFuel (doc : Document) : Nat :=
  2 * (doc.nodes.size + 1) * (doc.nodes.size + 1) + 2

/-- Decode a YAML document against a shape: the JSON form of the value, starting from the zero
value, or the failure. A text without a document decodes to the zero value. -/
def decodeDocument (shape : Shape) (text : String) : Except DecodeFailure Json :=
  match Document.read text with
  | .error e => .error (.aborted e.message)
  | .ok none => .ok shape.zero
  | .ok (some doc) =>
    let run : Decoding Json := do
      tally
      let (value, _) ← decode doc (decodingFuel doc) shape doc.root shape.zero
      pure value
    match run.run.run {} with
    | (.error m, _) => .error (.aborted ("yaml: " ++ m))
    | (.ok value, st) =>
      if st.reports.isEmpty then .ok value else .error (.types st.reports.toList)

end Yaml

end Timetabling
