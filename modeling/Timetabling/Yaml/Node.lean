import Timetabling.Yaml.Event
import Timetabling.Yaml.Resolve

/-! # YAML documents as nodes

The events of the first document of a text are built into a graph of nodes: scalars, sequences,
mappings, and aliases that point at the node of an anchor. Nodes are numbered in the order their
events arrive, and an anchor names the latest node that carried it, from the moment its node
starts: an alias inside an anchored collection may point at that collection.

Each node keeps its line, counting from one, and its short tag: the tag written on it, or by
default `!!str` for a quoted or block scalar, `!!merge` for a plain `<<`, the resolved tag for
another plain scalar, `!!seq` for a sequence and `!!map` for a mapping. The tag `!` alone counts
as no tag. -/

namespace Timetabling

namespace Yaml

/-- What a node holds. -/
inductive NodeBody where
  | scalar (value : String) (style : ScalarStyle)
  | sequence (items : List Nat)
  | mapping (entries : List (Nat × Nat))
  /-- A reference to the node an anchor named. -/
  | alias (name : String) (target : Nat)
deriving Repr, Inhabited

/-- A node with its tag (empty for an alias) and line. -/
structure Node where
  body : NodeBody
  tag : String
  line : Nat
deriving Repr, Inhabited

namespace Node

/-- The text of a node: a scalar's value, an alias's anchor name, empty for a collection. -/
def text (n : Node) : String :=
  match n.body with
  | .scalar v _ => v
  | .alias name _ => name
  | _ => ""

/-- The kind of a node, as a number: scalar, sequence, mapping, alias. -/
def kindIndex (n : Node) : Nat :=
  match n.body with
  | .scalar _ _ => 0
  | .sequence _ => 1
  | .mapping _ => 2
  | .alias _ _ => 3

/-- Whether a node is a scalar that stands for text whatever its spelling: tagged `!!str`, which
is the default for quoted and block scalars. -/
def isText (n : Node) : Bool :=
  match n.body with
  | .scalar _ _ => n.tag == "!!str"
  | _ => false

/-- Whether a node is the key `<<` that merges mappings into its mapping. -/
def isMergeKey (n : Node) : Bool :=
  match n.body with
  | .scalar v _ => v == "<<" && (n.tag == "" || n.tag == "!" || n.tag == "!!merge")
  | _ => false

end Node

/-- The nodes of a document and its root. -/
structure Document where
  nodes : Array Node
  root : Nat
deriving Repr, Inhabited

namespace Document

/-- A node by its number. -/
def node (d : Document) (i : Nat) : Node :=
  d.nodes.getD i default

/-- The tag a node stands under: `!!str` for text, an alias's target's tag, or its own. -/
def shortTagOf (d : Document) (i : Nat) : String :=
  let n := d.node i
  match n.body with
  | .alias _ target => (d.node target).tag
  | _ => n.tag

end Document

/-- The tag of a new node: the written tag unless it is empty or `!`, else the default, else for
a scalar its resolved tag. -/
def nodeTag (written defaultTag : String) (scalarValue : Option String) : String :=
  if written != "" && written != "!" then shortTag written
  else if defaultTag != "" then defaultTag
  else match scalarValue with
    | some v => plainTag v
    | none => ""

/-- Building nodes from events: the events, the next one to take, the nodes so far, the anchors,
and the error that ended the events, if one did. -/
structure Composer where
  events : Array Event
  next : Nat := 0
  nodes : Array Node := #[]
  anchors : List (String × Nat) := []
  failure : Option YamlError := none

namespace Composer

/-- The next event; past the last one, the error that ended them. -/
def peek (c : Composer) : Except YamlError Event :=
  match c.events[c.next]? with
  | some e => .ok e
  | none => .error (c.failure.getD (.abort "attempted to go past the end of stream; corrupted value?"))

/-- Take the next event. -/
def advance (c : Composer) : Composer :=
  { c with next := c.next + 1 }

/-- Add a node, naming it by an anchor if it has one. -/
def add (c : Composer) (n : Node) (anchor : Option String) : Composer × Nat :=
  let i := c.nodes.size
  let anchors := match anchor with
    | some a => (a, i) :: c.anchors
    | none => c.anchors
  ({ c with nodes := c.nodes.push n, anchors }, i)

/-- Fill in the body of a collection node. -/
def setBody (c : Composer) (i : Nat) (b : NodeBody) : Composer :=
  { c with nodes := c.nodes.modify i fun n => { n with body := b } }

/-- Whether an event ends a collection. -/
def isEnd (e : Event) : Bool :=
  match e.kind with
  | .sequenceEnd | .mappingEnd => true
  | _ => false

mutual

/-- Build the node whose events come next. -/
def build : Nat → Composer → Except YamlError (Nat × Composer)
  | 0, _ => .error (.abort "document nests too deeply")
  | fuel + 1, c => do
    let e ← c.peek
    let line := e.start.line + 1
    match e.kind with
    | .scalar anchor tag value style =>
      let defaultTag := if style == .plain then (if value == "<<" then "!!merge" else "") else "!!str"
      let (c, i) := c.add ⟨.scalar value style, nodeTag tag defaultTag (some value), line⟩ anchor
      return (i, c.advance)
    | .alias name =>
      match c.anchors.lookup name with
      | none => throw (.abort ("unknown anchor '" ++ name ++ "' referenced"))
      | some target =>
        let (c, i) := c.add ⟨.alias name target, "", line⟩ none
        return (i, c.advance)
    | .sequenceStart anchor tag =>
      let (c, i) := c.add ⟨.sequence [], nodeTag tag "!!seq" none, line⟩ anchor
      let (items, c) ← buildItems fuel c.advance
      return (i, (c.setBody i (.sequence items)).advance)
    | .mappingStart anchor tag =>
      let (c, i) := c.add ⟨.mapping [], nodeTag tag "!!map" none, line⟩ anchor
      let (entries, c) ← buildEntries fuel c.advance
      return (i, (c.setBody i (.mapping entries)).advance)
    | _ => throw (.abort "unexpected event")

/-- Build the items of a sequence, up to its end. -/
def buildItems : Nat → Composer → Except YamlError (List Nat × Composer)
  | 0, _ => .error (.abort "document nests too deeply")
  | fuel + 1, c => do
    let e ← c.peek
    if isEnd e then return ([], c)
    let (i, c) ← build fuel c
    let (rest, c) ← buildItems fuel c
    return (i :: rest, c)

/-- Build the entries of a mapping, up to its end. -/
def buildEntries : Nat → Composer → Except YamlError (List (Nat × Nat) × Composer)
  | 0, _ => .error (.abort "document nests too deeply")
  | fuel + 1, c => do
    let e ← c.peek
    if isEnd e then return ([], c)
    let (k, c) ← build fuel c
    let (v, c) ← build fuel c
    let (rest, c) ← buildEntries fuel c
    return ((k, v) :: rest, c)

end

end Composer

/-- The first document of a text, or `none` when the text holds no document. -/
def Document.read (text : String) : Except YamlError (Option Document) := do
  let text := if text.isEmpty then "\n" else text
  let (events, failure) := firstDocumentEvents text
  let c : Composer := { events := events.toArray, failure }
  let _ ← c.peek
  let c := c.advance
  let e ← c.peek
  match e.kind with
  | .streamEnd => return none
  | _ =>
    let c := c.advance
    let (root, c) ← c.build (2 * events.length + 2)
    let _ ← c.peek
    return some ⟨c.nodes, root⟩

end Yaml

end Timetabling
