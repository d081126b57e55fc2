import Timetabling.Json.Decode
import Timetabling.Number.Literal
import Timetabling.Text.Quoted
import Timetabling.Json.Render

/-! # A scripted database

The record store and the Q-table store speak SQL to a database. Here the database answers from
a script: for each kind of statement, a list of replies, the `n`-th statement of a kind getting
the `n`-th reply and the last reply repeating. A kind with no replies fails with
`fake db: unscripted <kind>`. Every statement is logged with its arguments, failed or not.

Reading a reply into records follows the rules of the SQL client: each column of the reply must
name a field of the record, and each cell is converted to the field's type. Text reads numbers
and truth values as their text; integers and floats read text by parsing it, and refuse `NULL`;
arrays of text read the database's `{a,b}` form; JSON fields keep the text as it is. A failed
conversion names the column, its position and the cell. -/

namespace Timetabling

/-- A value in a result row. -/
inductive Cell where
  | null
  | flag (b : Bool)
  | int (n : Int)
  | real (x : Float)
  | text (s : String)
  | bytes (s : String)
  | time (s : String)
deriving Repr, Inhabited

/-- The kinds of statement the stores send. -/
inductive Statement where
  | courseStudents
  | courseBatches
  | batchStudents
  | courses
  | faculty
  | batches
  | rooms
  | timeSlots
  | qtableSelect
  | qtableInsert
  | qtableUpdate
  | schema
deriving DecidableEq, Repr

namespace Statement

/-- The name of a kind of statement. -/
def name : Statement → String
  | .courseStudents => "course_students"
  | .courseBatches => "course_batches"
  | .batchStudents => "batch_students"
  | .courses => "courses"
  | .faculty => "faculty"
  | .batches => "batches"
  | .rooms => "rooms"
  | .timeSlots => "time_slots"
  | .qtableSelect => "qtable_select"
  | .qtableInsert => "qtable_insert"
  | .qtableUpdate => "qtable_update"
  | .schema => "schema"

/-- The columns a query's reply has unless the reply names its own. -/
def columns : Statement → List String
  | .courseStudents | .courseBatches | .batchStudents => ["owner_id", "member_id"]
  | .courses => ["id", "code", "department_id", "faculty_id", "sessions_per_week", "credits",
      "subject_type", "required_features"]
  | .faculty => ["id", "department_id", "max_weekly_sessions", "available_slots", "preferences"]
  | .batches => ["id", "department_id"]
  | .rooms => ["id", "capacity", "features", "department_id"]
  | .timeSlots => ["id", "day", "period", "start_time", "end_time"]
  | .qtableSelect => ["scope", "version", "q_values", "updates", "updated_at"]
  | _ => []

/-- Every kind of statement. -/
def all : List Statement :=
  [.courseStudents, .courseBatches, .batchStudents, .courses, .faculty, .batches, .rooms, .timeSlots,
   .qtableSelect, .qtableInsert, .qtableUpdate, .schema]

/-- The kind of statement with a name. -/
def ofName? (name : String) : Option Statement :=
  all.find? (·.name == name)

end Statement

/-- One scripted reply. -/
structure Reply where
  columns : Option (List String) := none
  rows : List (List Cell) := []
  error : Option String := none
  affected : Int := 0
  affectedError : Option String := none
deriving Repr, Inhabited

/-- An argument of a statement as the log records it: time arguments without their value. -/
inductive Arg where
  | null
  | int (n : Int)
  | text (s : String)
  | time
deriving Repr, Inhabited

/-- The JSON form of a logged argument. -/
def Arg.toJson : Arg → Json
  | .null => .null
  | .int n => .int n
  | .text s => .string s
  | .time => .string "<time>"

/-- The database form of a list of text: each item in double quotes with quotes and backslashes
escaped, in braces; no list is `NULL`. -/
def Arg.textArray : Option (List String) → Arg
  | none => .null
  | some xs =>
    let item (s : String) : String :=
      "\"" ++ s.foldl (fun acc c => if c == '"' || c == '\\' then acc.push '\\' |>.push c else acc.push c) "" ++ "\""
    .text ("\x7b" ++ ",".intercalate (xs.map item) ++ "\x7d")

/-- A database answering from a script, with the log of what it was sent. -/
structure ScriptedDatabase where
  script : List (String × List Reply) := []
  /-- How many statements of each kind were answered. -/
  served : List (String × Nat) := []
  /-- The statements sent, oldest first. -/
  log : List (String × List Arg) := []
deriving Repr, Inhabited

namespace ScriptedDatabase

/-- Send a statement: log it and take its reply; a kind without replies fails. -/
def send (db : ScriptedDatabase) (st : Statement) (args : List Arg) : Except String Reply × ScriptedDatabase :=
  let name := st.name
  let n := ((db.served.find? (·.1 == name)).map (·.2)).getD 0
  let served := (db.served.filter (·.1 != name)) ++ [(name, n + 1)]
  let db : ScriptedDatabase := { db with log := db.log ++ [(name, args)], served }
  match (db.script.find? (·.1 == name)).map (·.2) with
  | none | some [] => (.error ("fake db: unscripted " ++ name), db)
  | some rs =>
    let r := rs.getD n (rs.getLastD default)
    match r.error with
    | some e => (.error e, db)
    | none => (.ok r, db)

/-- The JSON form of the log: one `{name, args}` per statement. -/
def logJson (db : ScriptedDatabase) : Json :=
  .array (db.log.map fun (name, args) => .object [("name", .string name), ("args", .array (args.map Arg.toJson))])

end ScriptedDatabase

/-! ## Reading cells -/

/-- The type of a record field. -/
inductive FieldType where
  | text
  | int (name : String) (bits : Nat)
  | real
  | textArray
  | jsonText
  | time
deriving Repr, Inhabited

/-- A cell read into a field. -/
inductive FieldValue where
  | text (s : String)
  | int (n : Int)
  | real (x : Float)
  | textArray (xs : Option (List String))
  | jsonText (s : String)
  | time
deriving Repr, Inhabited

namespace Cell

/-- The name of a cell's type as the client writes it in errors. -/
def typeName : Cell → String
  | .null => "<nil>"
  | .flag _ => "bool"
  | .int _ => "int64"
  | .real _ => "float64"
  | .text _ => "string"
  | .bytes _ => "[]uint8"
  | .time _ => "time.Time"

/-- The text of a cell used when converting it through text. -/
def asText : Cell → String
  | .null => ""
  | .flag b => if b then "true" else "false"
  | .int n => toString n
  | .real x => FloatText.general x
  | .text s | .bytes s | .time s => s

end Cell

/-- The elements of the database's text form of an array: `{a,"b c",NULL}`. Elements may be
quoted, with backslash escapes; an unquoted `NULL` is no element. Nested arrays are refused. -/
def parseTextArray (src : String) : Except String (List (Option String)) :=
  let cs := src.toList
  let unexpected (c : Char) (i : Nat) : Except String (List (Option String)) :=
    .error ("pq: unable to parse array; unexpected " ++ quoteRune c ++ " at offset " ++ toString i)
  match cs with
  | '\x7b' :: rest =>
    match rest with
    | ['\x7d'] => .ok []
    | '\x7d' :: c :: _ => unexpected c 2
    | '\x7b' :: _ => .error "pq: cannot convert ARRAY[0][0] to StringArray"
    | _ =>
      -- elements separated by commas, closed by a brace
      let rec elems (fuel : Nat) (i : Nat) (cs : List Char) (acc : List (Option String)) :
          Except String (List (Option String)) :=
        match fuel with
        | 0 => .error "pq: unable to parse array"
        | fuel + 1 =>
          let (elem, i, cs) : Except String (Option String) × Nat × List Char :=
            match cs with
            | '"' :: more =>
              let rec quoted (fuel : Nat) (i : Nat) (cs : List Char) (acc : List Char) (escape : Bool) :
                  Option (String × Nat × List Char) :=
                match fuel, cs with
                | 0, _ => none
                | _, [] => none
                | fuel + 1, c :: more =>
                  if escape then quoted fuel (i + 1) more (c :: acc) false
                  else if c == '\\' then quoted fuel (i + 1) more acc true
                  else if c == '"' then some (String.ofList acc.reverse, i + 1, more)
                  else quoted fuel (i + 1) more (c :: acc) false
              match quoted (more.length + 1) (i + 1) more [] false with
              | some (s, i, more) => (.ok (some s), i, more)
              | none => (.error ("pq: unable to parse array; expected '\x7d' at offset " ++ toString (i + 1 + more.length)), i, [])
            | _ =>
              let body := cs.takeWhile fun c => c != ',' && c != '\x7d'
              let after := cs.drop body.length
              if after.isEmpty then (.error ("pq: unable to parse array; expected '\x7d' at offset " ++ toString (i + body.length)), i, [])
              else if body.isEmpty then
                match after with
                | c :: _ => (.error ("pq: unable to parse array; unexpected " ++ quoteRune c ++ " at offset " ++ toString i), i, [])
                | [] => (.error "pq: unable to parse array", i, [])
              else
                let s := String.ofList body
                (.ok (if s == "NULL" then none else some s), i + body.length, after)
          match elem with
          | .error e => .error e
          | .ok e =>
            match cs with
            | ',' :: more => elems fuel (i + 1) more (e :: acc)
            | ['\x7d'] => .ok (e :: acc).reverse
            | '\x7d' :: c :: _ => unexpected c (i + 1)
            | c :: _ => unexpected c i
            | [] => .error ("pq: unable to parse array; expected '\x7d' at offset " ++ toString i)
      elems (cs.length + 1) 1 rest []
  | _ => .error "pq: unable to parse array; expected '\x7b' at offset 0"
where
  /-- A character in single quotes, escaped as a character literal. -/
  quoteRune (c : Char) : String :=
    if c == '\'' then "'\\''" else if c == '"' then "'\"'" else "'" ++ (Text.quoteChar c) ++ "'"

namespace FieldType

/-- Read a cell into a field of this type. -/
def read (t : FieldType) (cell : Cell) : Except String FieldValue :=
  let viaText (kind : String) (ok : String → Option FieldValue) (range : String → Bool) :
      Except String FieldValue :=
    match cell with
    | .null => .error ("converting NULL to " ++ kind ++ " is unsupported")
    | _ =>
      let s := cell.asText
      match ok s with
      | some v => .ok v
      | none =>
        .error ("converting driver.Value type " ++ cell.typeName ++ " (" ++ Text.quoted s ++ ") to a " ++ kind ++
          ": " ++ (if range s then "value out of range" else "invalid syntax"))
  match t with
  | .text =>
    match cell with
    | .null => .error "converting NULL to string is unsupported"
    | c => .ok (.text c.asText)
  | .int name bits =>
    match cell with
    | .int n => if -(Int.pow 2 (bits - 1)) ≤ n ∧ n < Int.pow 2 (bits - 1) then .ok (.int n)
      else viaText name (fun _ => none) (fun _ => true)
    | .time _ => .error ("unsupported Scan, storing driver.Value type time.Time into type *" ++ name)
    | _ =>
      let digits (s : String) : Bool :=
        let body := match s.toList with
          | '-' :: r | '+' :: r => r
          | r => r
        !body.isEmpty && body.all Char.isDigit
      viaText name (fun s =>
        if !digits s then none
        else
          let v := Json.integerValue (if s.startsWith "+" then (s.drop 1).toString else s)
          if -(Int.pow 2 (bits - 1)) ≤ v ∧ v < Int.pow 2 (bits - 1) then some (.int v) else none) digits
  | .real =>
    match cell with
    | .real x => .ok (.real x)
    | .time _ => .error "unsupported Scan, storing driver.Value type time.Time into type *float64"
    | _ => viaText "float64" (fun s => (FloatLiteral.parse? s).map .real)
        FloatLiteral.overflows
  | .textArray =>
    match cell with
    | .null => .ok (.textArray none)
    | .text s | .bytes s =>
      match parseTextArray s with
      | .error e => .error e
      | .ok items =>
        match items.findIdx? Option.isNone with
        | some i => .error ("pq: parsing array element index " ++ toString i ++ ": cannot convert nil to string")
        | none => .ok (.textArray (some (items.filterMap id)))
    | c => .error ("pq: cannot convert " ++ c.typeName ++ " to StringArray")
  | .jsonText =>
    match cell with
    | .null => .ok (.jsonText "")
    | .text s => .ok (.jsonText s)
    | .bytes s => .ok (.jsonText (if s.isEmpty then "\x7b\x7d" else s))
    | _ => .error "Incompatible type for JSONText"
  | .time =>
    match cell with
    | .time _ => .ok .time
    | c => .error ("unsupported Scan, storing driver.Value type " ++ c.typeName ++ " into type *time.Time")

end FieldType

/-- A record type: its name as errors show it and its fields by column name. -/
structure RecordType where
  name : String
  fields : List (String × FieldType)

/-- A record read from a row: the value of each field that had a column. -/
abbrev Record := List (String × FieldValue)

namespace Record

/-- A text field, empty when absent. -/
def text (r : Record) (f : String) : String :=
  match r.find? (·.1 == f) with
  | some (_, .text s) => s
  | _ => ""

/-- An integer field, zero when absent. -/
def int (r : Record) (f : String) : Int :=
  match r.find? (·.1 == f) with
  | some (_, .int n) => n
  | _ => 0

/-- A float field, zero when absent. -/
def real (r : Record) (f : String) : Float :=
  match r.find? (·.1 == f) with
  | some (_, .real x) => x
  | _ => 0

/-- A text-array field, absent (`NULL`) when absent. -/
def texts (r : Record) (f : String) : Option (List String) :=
  match r.find? (·.1 == f) with
  | some (_, .textArray xs) => xs
  | _ => none

/-- A JSON field's text, empty when absent. -/
def json (r : Record) (f : String) : String :=
  match r.find? (·.1 == f) with
  | some (_, .jsonText s) => s
  | _ => ""

end Record

namespace RecordType

/-- Check that every column names a field; `single` says whether one record is read (which
changes how the destination is named). -/
def checkColumns (t : RecordType) (columns : List String) (single : Bool) : Except String Unit :=
  match columns.find? fun c => !(t.fields.any (·.1 == c)) with
  | some c => .error ("missing destination name " ++ c ++ " in *" ++ (if single then "" else "[]") ++ "repository." ++ t.name)
  | none => .ok ()

/-- Read one row into a record. -/
def readRow (t : RecordType) (columns : List String) (row : List Cell) : Except String Record :=
  (columns.zipIdx).mapM fun (c, i) =>
    let ft := ((t.fields.find? (·.1 == c)).map (·.2)).getD .text
    match ft.read (row.getD i .null) with
    | .ok v => .ok (c, v)
    | .error e => .error ("sql: Scan error on column index " ++ toString i ++ ", name " ++ Text.quoted c ++ ": " ++ e)

/-- Read all rows of a reply into records. -/
def readAll (t : RecordType) (st : Statement) (r : Reply) : Except String (List Record) := do
  let columns := r.columns.getD st.columns
  t.checkColumns columns false
  r.rows.mapM (t.readRow columns)

/-- Read the first row of a reply into a record; `none` when there are no rows. -/
def readOne (t : RecordType) (st : Statement) (r : Reply) : Except String (Option Record) := do
  match r.rows with
  | [] => pure none
  | row :: _ =>
    let columns := r.columns.getD st.columns
    t.checkColumns columns true
    pure (some (← t.readRow columns row))

end RecordType

namespace Cell

/-- Whether text is an RFC 3339 time: `YYYY-MM-DDTHH:MM:SS`, optional fraction, and `Z` or an
offset. -/
def isTimestamp (s : String) : Bool :=
  let cs := s.toList
  let num (xs : List Char) : Option Nat :=
    if xs.all Char.isDigit && !xs.isEmpty then some (xs.foldl (fun n c => n * 10 + (c.toNat - '0'.toNat)) 0) else none
  let zoneOk (z : List Char) : Bool :=
    match z with
    | ['Z'] => true
    | [s, h1, h2, ':', m1, m2] =>
      (s == '+' || s == '-') && ((num [h1, h2]).map fun h => decide (h < 24)).getD false &&
        ((num [m1, m2]).map fun m => decide (m < 60)).getD false
    | _ => false
  match cs with
  | y1 :: y2 :: y3 :: y4 :: '-' :: mo1 :: mo2 :: '-' :: d1 :: d2 :: 'T' :: h1 :: h2 :: ':' :: mi1 :: mi2 :: ':' :: s1 :: s2 :: rest =>
    let dateOk := match num [y1, y2, y3, y4], num [mo1, mo2], num [d1, d2] with
      | some y, some m, some d =>
        let leap := y % 4 == 0 && (y % 100 != 0 || y % 400 == 0)
        let days := match m with
          | 2 => if leap then 29 else 28
          | 4 | 6 | 9 | 11 => 30
          | _ => 31
        1 ≤ m && m ≤ 12 && 1 ≤ d && d ≤ days
      | _, _, _ => false
    let clockOk := match num [h1, h2], num [mi1, mi2], num [s1, s2] with
      | some h, some mi, some sec => h < 24 && mi < 60 && sec < 60
      | _, _, _ => false
    let zone := match rest with
      | '.' :: more =>
        let frac := more.takeWhile Char.isDigit
        if frac.isEmpty then none else some (more.drop frac.length)
      | r => some r
    dateOk && clockOk && (zone.map zoneOk).getD false
  | _ => false

/-- A script cell from JSON in a column: `null` is `NULL`, numbers written as integers are
integers and other numbers floats, text in an `updated_at` column that reads as a time is a
time, and arrays and objects are their JSON text as bytes. -/
def ofJson (column : String) : Json → Cell
  | .null => .null
  | .bool b => .flag b
  | .number lit =>
    if Json.isIntegerLiteral lit then .int (Json.integerValue lit)
    else match Json.literalParts lit with
      | (neg, digits, e) => .real ((Json.decimalToFloat neg digits e).getD 0)
  | .string s => if column == "updated_at" && isTimestamp s then .time s else .text s
  | j => .bytes j.render

end Cell

namespace Json

/-- A scripted reply to a kind of statement, `{columns?, rows, error?, affected?, affected_error?}`;
its cells are read in the columns it names, or else in the statement's own. -/
def asReply (st : Option Statement) (j : Json) : Except DecodeError Reply := do
  let j ← asRecord j
  let columns ← j.getOpt "columns" (asList asString)
  let names := columns.getD ((st.map Statement.columns).getD [])
  let rows ← j.get "rows" (asList (asList pure))
  pure { columns, rows := rows.map fun row => row.zipIdx.map fun (c, i) => Cell.ofJson (names.getD i "") c,
         error := ← j.getOpt "error" asString, affected := ← j.get "affected" asInt,
         affectedError := ← j.getOpt "affected_error" asString }

/-- A database script: the replies to each kind of statement, by name. -/
def asScript (j : Json) : Except DecodeError ScriptedDatabase := do
  let entries ← asMap pure j
  let script ← entries.mapM fun (name, rs) => do pure (name, ← asList (asReply (Statement.ofName? name)) rs)
  pure { script }

end Json

end Timetabling
