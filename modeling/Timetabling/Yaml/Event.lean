import Timetabling.Yaml.Token.Scan

/-! # YAML events

The tokens of a text are arranged into *events*: the starts and ends of the stream, of documents
and of collections, scalars and aliases. A node may carry an anchor and a tag; a tag's handle is
replaced by the prefix a `%TAG` directive (or one of the defaults `!` and `!!`) gives it.

The arrangement follows the grammar of block and flow collections. Where a key, a value or an
item is left out, an empty plain scalar stands in for it. A block sequence may sit at the
indentation of the mapping key it belongs to. Errors name the construct they were found in:
its start is where the error points, unless that is the first line of the text. -/

namespace Timetabling

namespace Yaml

/-- What an event reports. -/
inductive EventKind where
  | streamStart
  | streamEnd
  | documentStart
  | documentEnd
  | alias (name : String)
  | scalar (anchor : Option String) (tag value : String) (style : ScalarStyle)
  | sequenceStart (anchor : Option String) (tag : String)
  | sequenceEnd
  | mappingStart (anchor : Option String) (tag : String)
  | mappingEnd
deriving Repr, Inhabited

/-- An event with the place where it starts. -/
structure Event where
  kind : EventKind
  start : Mark
deriving Repr, Inhabited

/-- Where the arrangement stands: what it expects next. -/
inductive ParseState where
  | streamStart
  | implicitDocumentStart
  | documentStart
  | documentContent
  | documentEnd
  | blockNode
  | blockNodeOrIndentlessSequence
  | flowNode
  | blockSequenceFirstEntry
  | blockSequenceEntry
  | indentlessSequenceEntry
  | blockMappingFirstKey
  | blockMappingKey
  | blockMappingValue
  | flowSequenceFirstEntry
  | flowSequenceEntry
  | flowSequenceEntryMappingKey
  | flowSequenceEntryMappingValue
  | flowSequenceEntryMappingEnd
  | flowMappingFirstKey
  | flowMappingKey
  | flowMappingValue
  | flowMappingEmptyValue
  | finished
deriving Repr, Inhabited, BEq

/-- An arrangement in progress: the scanner, the state, the states to return to, the starts of
the open collections, and the tag handles of the document. -/
structure Parser where
  scanner : Scanner
  state : ParseState := .streamStart
  states : List ParseState := []
  marks : List Mark := []
  handles : List (String × String) := []
deriving Inhabited

/-- The tag handles every document has. -/
def defaultHandles : List (String × String) :=
  [("!", "!"), ("!!", "tag:yaml.org,2002:")]

namespace Parser

/-- One step: the next event and the parser after it. -/
abbrev Step := Except YamlError (Event × Parser)

/-- The token at the front. -/
def peek (p : Parser) : Except YamlError (Token × Parser) := do
  let (t, s) ← p.scanner.peekToken
  return (t, { p with scanner := s })

/-- Move past the front token. -/
def skip (p : Parser) : Parser :=
  { p with scanner := p.scanner.skipToken }

/-- Return to the state saved last. -/
def pop (p : Parser) : Parser :=
  { p with state := p.states.headD .finished, states := p.states.tail }

/-- Save a state to return to. -/
def push (p : Parser) (st : ParseState) : Parser :=
  { p with states := st :: p.states }

/-- Move to a state. -/
def goto (p : Parser) (st : ParseState) : Parser :=
  { p with state := st }

/-- Close the innermost open collection. -/
def dropMark (p : Parser) : Parser :=
  { p with marks := p.marks.tail }

/-- The empty plain scalar that stands for a node left out. -/
def empty (p : Parser) (m : Mark) : Step :=
  .ok (⟨.scalar none "" "" .plain, m⟩, p)

/-- An error in the innermost open collection. -/
def failIn (p : Parser) (problem : String) (found : Mark) : Step :=
  .error (.arrange (p.marks.headD {}) problem found)

/-- The anchor and tag before a node, with the node's start, where its tag stood, and the token
after them. -/
def properties (p : Parser) (t : Token) :
    Except YamlError (Option String × Option (String × String) × Mark × Mark × Token × Parser) :=
  match t.kind with
  | .anchor a => do
    let (t2, p) ← p.skip.peek
    match t2.kind with
    | .tag h s =>
      let (t3, p) ← p.skip.peek
      pure (some a, some (h, s), t.start, t2.start, t3, p)
    | _ => pure (some a, none, t.start, t.start, t2, p)
  | .tag h s => do
    let (t2, p) ← p.skip.peek
    match t2.kind with
    | .anchor a =>
      let (t3, p) ← p.skip.peek
      pure (some a, some (h, s), t.start, t.start, t3, p)
    | _ => pure (none, some (h, s), t.start, t.start, t2, p)
  | _ => pure (none, none, t.start, t.start, t, p)

/-- A node: an alias, a scalar, a collection start, or an empty scalar carrying only properties.
`block` allows block collections, and `indentless` a block sequence at the key's indentation. -/
def parseNode (p : Parser) (block indentless : Bool) : Step := do
  let (t, p) ← p.peek
  match t.kind with
  | .alias name => return (⟨.alias name, t.start⟩, p.skip.pop)
  | _ =>
    let (anchor, tagged, start, tagMark, t, p) ← p.properties t
    let tag ← match tagged with
      | none => pure ""
      | some (handle, suffix) =>
        if handle.isEmpty then pure suffix
        else match p.handles.lookup handle with
          | some expansion => pure (expansion ++ suffix)
          | none => throw (.arrange start "found undefined tag handle" tagMark)
    if indentless && t.kind == .blockEntry then
      return (⟨.sequenceStart anchor tag, start⟩, p.goto .indentlessSequenceEntry)
    match t.kind with
    | .scalar v style => return (⟨.scalar anchor tag v style, start⟩, p.skip.pop)
    | .flowSequenceStart => return (⟨.sequenceStart anchor tag, start⟩, p.goto .flowSequenceFirstEntry)
    | .flowMappingStart => return (⟨.mappingStart anchor tag, start⟩, p.goto .flowMappingFirstKey)
    | .blockSequenceStart =>
      if block then return (⟨.sequenceStart anchor tag, start⟩, p.goto .blockSequenceFirstEntry)
    | .blockMappingStart =>
      if block then return (⟨.mappingStart anchor tag, start⟩, p.goto .blockMappingFirstKey)
    | _ => pure ()
    if anchor.isSome || !tag.isEmpty then return (⟨.scalar anchor tag "" .plain, start⟩, p.pop)
    throw (.arrange start "did not find expected node content" t.start)

/-- Read the directives before a document and add the default handles; a document may have one
`%YAML 1.1` directive and declare each handle once. -/
def directives (p : Parser) : Except YamlError Parser :=
  let rec go : Nat → Bool → Parser → Except YamlError Parser
    | 0, _, p => .ok p
    | fuel + 1, seenVersion, p =>
      match p.peek with
      | .error e => .error e
      | .ok (t, p) =>
        match t.kind with
        | .version major minor =>
          if seenVersion then .error (.arrange {} "found duplicate %YAML directive" t.start)
          else if major != 1 || minor != 1 then .error (.arrange {} "found incompatible YAML document" t.start)
          else go fuel true p.skip
        | .tagDirective handle expansion =>
          if (p.handles.lookup handle).isSome then .error (.arrange {} "found duplicate %TAG directive" t.start)
          else go fuel seenVersion { p.skip with handles := p.handles ++ [(handle, expansion)] }
        | _ =>
          .ok { p with handles := p.handles ++ defaultHandles.filter fun (h, _) => (p.handles.lookup h).isNone }
  go (p.scanner.cursor.text.size + 2) false p

/-- The stream start. -/
def streamStart (p : Parser) : Step := do
  let (t, p) ← p.peek
  if t.kind != .streamStart then throw (.arrange {} "did not find expected <stream-start>" t.start)
  return (⟨.streamStart, t.start⟩, (p.goto .implicitDocumentStart).skip)

/-- Whether a token begins a document or ends the stream. -/
def startsDocument (k : TokenKind) : Bool :=
  match k with
  | .version _ _ | .tagDirective _ _ | .documentStart | .streamEnd => true
  | _ => false

/-- A document start, implicit (the first document may begin with content) or explicit, or the
stream end. Stray document end markers are passed over. -/
def documentStart (p : Parser) (implicit : Bool) : Step := do
  let (t, p) ← p.peek
  let rec ends : Nat → Token → Parser → Except YamlError (Token × Parser)
    | 0, t, p => .ok (t, p)
    | fuel + 1, t, p =>
      if t.kind == .documentEnd then
        match p.skip.peek with
        | .error e => .error e
        | .ok (t, p) => ends fuel t p
      else .ok (t, p)
  let (t, p) ← if implicit then pure (t, p) else ends (p.scanner.cursor.text.size + 2) t p
  if implicit && !startsDocument t.kind then
    let p ← p.directives
    return (⟨.documentStart, t.start⟩, (p.push .documentEnd).goto .blockNode)
  else if t.kind != .streamEnd then
    let start := t.start
    let p ← p.directives
    let (t, p) ← p.peek
    if t.kind != .documentStart then throw (.arrange {} "did not find expected <document start>" t.start)
    return (⟨.documentStart, start⟩, ((p.push .documentEnd).goto .documentContent).skip)
  else
    return (⟨.streamEnd, t.start⟩, (p.goto .finished).skip)

/-- The content of an explicit document, which may be empty. -/
def documentContent (p : Parser) : Step := do
  let (t, p) ← p.peek
  match t.kind with
  | .version _ _ | .tagDirective _ _ | .documentStart | .documentEnd | .streamEnd => p.pop.empty t.start
  | _ => p.parseNode true false

/-- The end of a document, with or without an end marker. -/
def documentEnd (p : Parser) : Step := do
  let (t, p) ← p.peek
  let p := if t.kind == .documentEnd then p.skip else p
  return (⟨.documentEnd, t.start⟩, { p with handles := [], state := .documentStart })

/-- An entry of a block sequence, or its end. -/
def blockSequenceEntry (p : Parser) (first : Bool) : Step := do
  let p ← if first then do
      let (t, p) ← p.peek
      pure { p.skip with marks := t.start :: p.marks }
    else pure p
  let (t, p) ← p.peek
  match t.kind with
  | .blockEntry =>
    let (t2, p) ← p.skip.peek
    if t2.kind != .blockEntry && t2.kind != .blockEnd then (p.push .blockSequenceEntry).parseNode true false
    else (p.goto .blockSequenceEntry).empty t.stop
  | .blockEnd => return (⟨.sequenceEnd, t.start⟩, p.pop.dropMark.skip)
  | _ => p.failIn "did not find expected '-' indicator" t.start

/-- An entry of a block sequence at its key's indentation, or its end. -/
def indentlessSequenceEntry (p : Parser) : Step := do
  let (t, p) ← p.peek
  if t.kind == .blockEntry then
    let (t2, p) ← p.skip.peek
    match t2.kind with
    | .blockEntry | .key | .value | .blockEnd => (p.goto .indentlessSequenceEntry).empty t.stop
    | _ => (p.push .indentlessSequenceEntry).parseNode true false
  else return (⟨.sequenceEnd, t.start⟩, p.pop)

/-- A key of a block mapping, or its end. -/
def blockMappingKey (p : Parser) (first : Bool) : Step := do
  let p ← if first then do
      let (t, p) ← p.peek
      pure { p.skip with marks := t.start :: p.marks }
    else pure p
  let (t, p) ← p.peek
  match t.kind with
  | .key =>
    let (t2, p) ← p.skip.peek
    match t2.kind with
    | .key | .value | .blockEnd => (p.goto .blockMappingValue).empty t.stop
    | _ => (p.push .blockMappingValue).parseNode true true
  | .blockEnd => return (⟨.mappingEnd, t.start⟩, p.pop.dropMark.skip)
  | _ => p.failIn "did not find expected key" t.start

/-- A value of a block mapping, which may be left out. -/
def blockMappingValue (p : Parser) : Step := do
  let (t, p) ← p.peek
  if t.kind == .value then
    let (t2, p) ← p.skip.peek
    match t2.kind with
    | .key | .value | .blockEnd => (p.goto .blockMappingKey).empty t.stop
    | _ => (p.push .blockMappingKey).parseNode true true
  else (p.goto .blockMappingKey).empty t.start

/-- An entry of a flow sequence (a single-pair mapping when it holds a key), or its end. -/
def flowSequenceEntry (p : Parser) (first : Bool) : Step := do
  let p ← if first then do
      let (t, p) ← p.peek
      pure { p.skip with marks := t.start :: p.marks }
    else pure p
  let (t, p) ← p.peek
  let (t, p) ← if t.kind != .flowSequenceEnd && !first then
      if t.kind == .flowEntry then p.skip.peek
      else throw (.arrange (p.marks.headD {}) "did not find expected ',' or ']'" t.start)
    else pure (t, p)
  if t.kind == .key then
    return (⟨.mappingStart none "", t.start⟩, (p.goto .flowSequenceEntryMappingKey).skip)
  else if t.kind != .flowSequenceEnd then
    (p.push .flowSequenceEntry).parseNode false false
  else
    return (⟨.sequenceEnd, t.start⟩, p.pop.dropMark.skip)

/-- The key of a single-pair mapping in a flow sequence. -/
def flowSequenceEntryMappingKey (p : Parser) : Step := do
  let (t, p) ← p.peek
  match t.kind with
  | .value | .flowEntry | .flowSequenceEnd => (p.skip.goto .flowSequenceEntryMappingValue).empty t.stop
  | _ => (p.push .flowSequenceEntryMappingValue).parseNode false false

/-- The value of a single-pair mapping in a flow sequence. -/
def flowSequenceEntryMappingValue (p : Parser) : Step := do
  let (t, p) ← p.peek
  if t.kind == .value then
    let (t2, p) ← p.skip.peek
    match t2.kind with
    | .flowEntry | .flowSequenceEnd => (p.goto .flowSequenceEntryMappingEnd).empty t2.start
    | _ => (p.push .flowSequenceEntryMappingEnd).parseNode false false
  else (p.goto .flowSequenceEntryMappingEnd).empty t.start

/-- The end of a single-pair mapping in a flow sequence. -/
def flowSequenceEntryMappingEnd (p : Parser) : Step := do
  let (t, p) ← p.peek
  return (⟨.mappingEnd, t.start⟩, p.goto .flowSequenceEntry)

/-- A key of a flow mapping, or its end. -/
def flowMappingKey (p : Parser) (first : Bool) : Step := do
  let p ← if first then do
      let (t, p) ← p.peek
      pure { p.skip with marks := t.start :: p.marks }
    else pure p
  let (t, p) ← p.peek
  let (t, p) ← if t.kind != .flowMappingEnd && !first then
      if t.kind == .flowEntry then p.skip.peek
      else throw (.arrange (p.marks.headD {}) "did not find expected ',' or '\x7d'" t.start)
    else pure (t, p)
  if t.kind == .key then
    let (t2, p) ← p.skip.peek
    match t2.kind with
    | .value | .flowEntry | .flowMappingEnd => (p.goto .flowMappingValue).empty t2.start
    | _ => (p.push .flowMappingValue).parseNode false false
  else if t.kind != .flowMappingEnd then
    (p.push .flowMappingEmptyValue).parseNode false false
  else
    return (⟨.mappingEnd, t.start⟩, p.pop.dropMark.skip)

/-- A value of a flow mapping, which may be left out. -/
def flowMappingValue (p : Parser) (empty : Bool) : Step := do
  let (t, p) ← p.peek
  if empty then (p.goto .flowMappingKey).empty t.start
  else if t.kind == .value then
    let (t2, p) ← p.skip.peek
    match t2.kind with
    | .flowEntry | .flowMappingEnd => (p.goto .flowMappingKey).empty t2.start
    | _ => (p.push .flowMappingKey).parseNode false false
  else (p.goto .flowMappingKey).empty t.start

/-- The next event. -/
def next (p : Parser) : Step :=
  match p.state with
  | .streamStart => p.streamStart
  | .implicitDocumentStart => p.documentStart true
  | .documentStart => p.documentStart false
  | .documentContent => p.documentContent
  | .documentEnd => p.documentEnd
  | .blockNode => p.parseNode true false
  | .blockNodeOrIndentlessSequence => p.parseNode true true
  | .flowNode => p.parseNode false false
  | .blockSequenceFirstEntry => p.blockSequenceEntry true
  | .blockSequenceEntry => p.blockSequenceEntry false
  | .indentlessSequenceEntry => p.indentlessSequenceEntry
  | .blockMappingFirstKey => p.blockMappingKey true
  | .blockMappingKey => p.blockMappingKey false
  | .blockMappingValue => p.blockMappingValue
  | .flowSequenceFirstEntry => p.flowSequenceEntry true
  | .flowSequenceEntry => p.flowSequenceEntry false
  | .flowSequenceEntryMappingKey => p.flowSequenceEntryMappingKey
  | .flowSequenceEntryMappingValue => p.flowSequenceEntryMappingValue
  | .flowSequenceEntryMappingEnd => p.flowSequenceEntryMappingEnd
  | .flowMappingFirstKey => p.flowMappingKey true
  | .flowMappingKey => p.flowMappingKey false
  | .flowMappingValue => p.flowMappingValue false
  | .flowMappingEmptyValue => p.flowMappingValue true
  | .finished => .error (.abort "attempted to go past the end of stream; corrupted value?")

end Parser

/-- The events of a text up to the end of its first document (or the end of the stream, for a
text without documents), and the error that stopped the reading, if one did. -/
def firstDocumentEvents (text : String) : List Event × Option YamlError :=
  let rec go : Nat → Parser → List Event → List Event × Option YamlError
    | 0, _, acc => (acc.reverse, none)
    | fuel + 1, p, acc =>
      match p.next with
      | .error e => (acc.reverse, some e)
      | .ok (ev, p) =>
        match ev.kind with
        | .documentEnd | .streamEnd => ((ev :: acc).reverse, none)
        | _ => go fuel p (ev :: acc)
  go (8 * text.length + 16) { scanner := Scanner.ofText text } []

end Yaml

end Timetabling
