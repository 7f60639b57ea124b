import SymbolGraph.Graph.Id
import SymbolGraph.Json.Writer
import SymbolGraph.Record.Metadata
import SymbolGraph.Text.Integer
set_option autoImplicit false

/-!
# Graphs as they are exchanged

A graph that comes from outside has nodes and edges whose identifiers, labels, paths and lines
are whatever JSON values were written there; only kinds and relations are checked. Such a graph
can be put in order, which fails when its identifiers do not compare, and written as JSON.

An edge without identifier gets the one that its link has. Filling the identifiers in and
ordering are two steps, since a graph keeps the identifiers filled in even when the ordering
fails.
-/

namespace SymbolGraph

/-- Why a value is no graph, or why a graph cannot be ordered, written or queried. -/
inductive RecordFault
  /-- An object was needed to look a member up that may be missing. -/
  | notAnObject
  /-- A value has a type that the operation is not defined for. -/
  | wrongType
  /-- A text was needed to make an identifier of. -/
  | notAText
  /-- An object lacks a member. -/
  | missing (key : Text)
  /-- A value is none of the kinds. -/
  | notAKind (value : Json)
  /-- A value is none of the relations. -/
  | notARelation (value : Json)
  /-- An item of a list of members is no pair. -/
  | notAPair (index length : Nat)
  /-- A string is no integer numeral. -/
  | notANumeral (string : Points)
  /-- A numeral has too many digits. -/
  | longNumeral (digits : Nat)
  /-- An infinite number has no integer part. -/
  | infinite
  /-- What is no number has no integer part. -/
  | notANumber
  deriving DecidableEq, Repr

/-- How much of a quoted string a message shows that says it is no numeral. -/
def maxShown : Nat := 200

/-- The text of a fault, for those that have one. -/
def RecordFault.message : RecordFault → Text
  | notAnObject | wrongType | notAText => []
  | missing key => Text.quoted key
  | notAKind v => v.display ++ " is not a valid NodeKind".toList
  | notARelation v => v.display ++ " is not a valid Relation".toList
  | notAPair i n =>
    "dictionary update sequence element #".toList ++ Text.ofNat i ++ " has length ".toList
      ++ Text.ofNat n ++ "; 2 is required".toList
  | notANumeral s =>
    "invalid literal for int() with base 10: ".toList ++ s.quoted.take maxShown
  | longNumeral n =>
    "Exceeds the limit (".toList ++ Text.ofNat Text.maxDigits
      ++ " digits) for integer string conversion: value has ".toList ++ Text.ofNat n
      ++ " digits; use sys.set_int_max_str_digits() to increase the limit".toList
  | infinite => "cannot convert float infinity to integer".toList
  | notANumber => "cannot convert float NaN to integer".toList

/-- A node as exchanged. -/
structure NodeRecord where
  id : Json
  label : Json
  kind : NodeKind
  filePath : Json := .null
  line : Json := .null
  metadata : Metadata := []
  deriving DecidableEq, Repr

/-- An edge as exchanged. -/
structure EdgeRecord where
  id : Json
  source : Json
  target : Json
  relation : Relation
  metadata : Metadata := []
  deriving DecidableEq, Repr

/-- A graph as exchanged. -/
structure GraphRecord where
  nodes : List NodeRecord := []
  edges : List EdgeRecord := []
  deriving DecidableEq, Repr

/-! ## Records of a graph -/

/-- The record of a node. -/
def Node.record (n : Node) : NodeRecord :=
  { id := .text n.id, label := .text n.label, kind := n.kind
    filePath := Json.ofText? n.filePath
    line := (n.line.map Json.int).getD .null, metadata := Metadata.ofFields n.metadata }

/-- The record of an edge. -/
def Edge.record (e : Edge) : EdgeRecord :=
  { id := .text e.id, source := .text e.link.source, target := .text e.link.target
    relation := e.link.relation, metadata := Metadata.ofWeight e.weight }

/-- The record of a graph. -/
def Graph.record (g : Graph) : GraphRecord :=
  { nodes := g.nodes.map Node.record, edges := g.edges.map Edge.record }

/-! ## Order -/

/-- Items in ascending order of their keys, those with equal keys in the order they had. -/
def sortByKey {α : Type} (key : α → Json) (xs : List α) : Except RecordFault (List α) :=
  match Json.sortBy? key xs with
  | some ys => .ok ys
  | none => .error .wrongType

namespace EdgeRecord

/-- The edge has an identifier: one that is not null, zero, false or empty. -/
def hasId (e : EdgeRecord) : Bool := e.id.truthy

/-- The identifier of an edge between nodes with the given identifiers. -/
def linkId (source : Points) (relation : Relation) (target : Points) : Points :=
  source ++ .char '|' :: relation.word.points ++ .char '|' :: target

/-- The identifier is the one that a link has. -/
theorem linkId_points (l : Link) :
    linkId l.source.points l.relation l.target.points = l.id.points := by
  simp [linkId, Link.id, Text.join, Text.points]

/-- The edge with an identifier, made from its link if it has none. That takes strings as source
and target. -/
def fillId (e : EdgeRecord) : Except RecordFault EdgeRecord :=
  if e.hasId then .ok e
  else
    match e.source, e.target with
    | .str s, .str t => .ok { e with id := .str (linkId s e.relation t) }
    | _, _ => .error .wrongType

/-- Fills identifiers in, one edge after the other, until one cannot be filled in: the edges
then, and the fault if there is one. Only the edges selected are touched. -/
def fillIds (selected : EdgeRecord → Bool) :
    List EdgeRecord → List EdgeRecord × Option RecordFault
  | [] => ([], none)
  | e :: es =>
    if selected e then
      match e.fillId with
      | .error fault => (e :: es, some fault)
      | .ok e' => let (rest, fault) := fillIds selected es; (e' :: rest, fault)
    else let (rest, fault) := fillIds selected es; (e :: rest, fault)

/-- The number of references that the edge stands for: the integer that its weight denotes. -/
def weight (e : EdgeRecord) : Except RecordFault Int :=
  match (e.metadata.get? "weight").getD (.int 1) with
  | .int n => .ok n
  | .bool b => .ok (if b then 1 else 0)
  | .float x =>
    match x.truncate?, x with
    | some n, _ => .ok n
    | none, .nan => .error .notANumber
    | none, _ => .error .infinite
  | .str s =>
    match Text.integer s.shown with
    | .ok n => .ok n
    | .error .malformed => .error (.notANumeral s)
    | .error (.tooLong n) => .error (.longNumeral n)
  | _ => .error .wrongType

/-- The edge as JSON. -/
def toJson (e : EdgeRecord) : Json :=
  Json.ofFields [("id", e.id), ("source", e.source), ("target", e.target),
    ("relation", .text e.relation.word), ("metadata", .obj e.metadata.fields)]

end EdgeRecord

namespace NodeRecord

/-- The node stands for something that no file declares. -/
def isExternal (n : NodeRecord) : Bool :=
  ((n.metadata.get? "external").map Json.truthy).getD false

/-- The node as JSON. -/
def toJson (n : NodeRecord) : Json :=
  Json.ofFields [("id", n.id), ("label", n.label), ("type", .text n.kind.word),
    ("filePath", n.filePath), ("line", n.line), ("metadata", .obj n.metadata.fields)]

end NodeRecord

namespace GraphRecord

/-- The graph as JSON, in the order it has. -/
def toJson (g : GraphRecord) : Json :=
  Json.ofFields [("nodes", .arr (g.nodes.map NodeRecord.toJson)),
    ("edges", .arr (g.edges.map EdgeRecord.toJson))]

/-- Fills all identifiers in, as far as that goes. -/
def filled (g : GraphRecord) : GraphRecord :=
  { g with edges := (EdgeRecord.fillIds (fun _ => true) g.edges).1 }

/-- The graph with all identifiers filled in, and its nodes and edges in order. -/
def ordered (g : GraphRecord) : Except RecordFault GraphRecord := do
  let (edges, fault) := EdgeRecord.fillIds (fun _ => true) g.edges
  match fault with
  | some fault => .error fault
  | none =>
    let nodes ← sortByKey NodeRecord.id g.nodes
    let edges ← sortByKey EdgeRecord.id edges
    return { nodes, edges }

/-- The written form of a graph: its ordered form as JSON. -/
def write (indent : Option Text) (g : GraphRecord) : Except RecordFault Points := do
  return Json.write indent (← g.ordered).toJson

end GraphRecord

end SymbolGraph
