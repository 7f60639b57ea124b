import SymbolGraph.Draft.Resolve
import SymbolGraph.Record.Basic
set_option autoImplicit false

/-!
# Drafts of exchanged nodes

A draft whose nodes and links come from outside: identifiers, labels, paths, lines and the ends
of links are whatever JSON values were given. It follows the rules of a draft as far as the
values allow. An identifier or an end must be a value that may be a key; that the ends of a link
are strings is asked for only when the graph is made.
-/

namespace SymbolGraph

/-- One node made of two with the same identifier. The label and the path are the first that are
not empty, the line is the first that is there, and each member of the metadata is the first. -/
def NodeRecord.merge (old new : NodeRecord) : NodeRecord :=
  { old with
    label := if old.label.truthy then old.label else new.label
    filePath := if old.filePath.truthy then old.filePath else new.filePath
    line := if old.line = .null then new.line else old.line
    metadata := old.metadata.putAllNew new.metadata }

/-- A link as exchanged. -/
structure LinkRecord where
  source : Json
  relation : Relation
  target : Json
  deriving DecidableEq, Repr

namespace LinkRecord

/-- The two links have the same relation and ends. -/
def same (a b : LinkRecord) : Bool :=
  a.source.identical b.source && a.relation = b.relation && a.target.identical b.target

/-- The edge that stands for a number of references, without an identifier. -/
def edge (l : LinkRecord) (weight : Nat) : EdgeRecord :=
  { id := .str [], source := l.source, target := l.target, relation := l.relation
    metadata := Metadata.ofWeight weight }

/-- The link and its count as a list. -/
def row (l : LinkRecord) (weight : Nat) : Json :=
  .arr [l.source, .text l.relation.word, l.target, .int weight]

end LinkRecord

/-- The record of a link. -/
def Link.record (l : Link) : LinkRecord := ⟨.text l.source, l.relation, .text l.target⟩

/-- A method as a row of module, class, name and identifier. -/
def methodRecord : (Text × Text × Text) × Text → Text × Text × Json × Text
  | ((scope, className, name), id) => (scope, className, .text name, id)

/-- A draft of exchanged nodes and links. -/
structure DraftRecord extends Names where
  /-- The nodes, in the order in which they were first put in. -/
  nodes : List NodeRecord := []
  /-- How often each link was referred to, in the order of the first references. -/
  weights : List (LinkRecord × Nat) := []
  /-- All methods as rows of module, class, name and identifier. The table of methods has those
  whose names are texts, which references find. -/
  methodRecords : List (Text × Text × Json × Text) := []
  /-- The names that the imports of a module bind, by the identifier of the module, where some
  of them are no strings. Where all are, the metadata of the module's node have them. -/
  bound : List (Text × Metadata) := []

/-- The record of a draft. -/
def Draft.record (d : Draft) : DraftRecord :=
  { d with
    nodes := d.nodes.map Node.record
    weights := d.weights.map fun (l, n) => (l.record, n)
    methodRecords := d.methods.map methodRecord }

/-- Puts a node among others, merged into the one with its identifier if there is one. -/
def insertRecord (n : NodeRecord) : List NodeRecord → List NodeRecord
  | [] => [n]
  | m :: ms => if m.id.identical n.id then m.merge n :: ms else m :: insertRecord n ms

/-- Counts one more reference. -/
def countRecord (l : LinkRecord) : List (LinkRecord × Nat) → List (LinkRecord × Nat)
  | [] => [(l, 1)]
  | (k, n) :: rest => if k.same l then (k, n + 1) :: rest else (k, n) :: countRecord l rest

namespace DraftRecord

/-- The node with an identifier. -/
def node? (d : DraftRecord) (id : Json) : Option NodeRecord := d.nodes.find? (·.id.identical id)

/-- Puts a node in. Nodes are values: a node that is put in shares its metadata with none,
neither with another of the draft nor with the one that was given, which so keeps the metadata
it had. -/
def insert (d : DraftRecord) (n : NodeRecord) : Except RecordFault DraftRecord :=
  if n.id.isKey then .ok { d with nodes := insertRecord n d.nodes } else .error .wrongType

/-- Counts one more reference. -/
def refer (d : DraftRecord) (source : Json) (relation : Relation) (target : Json) :
    Except RecordFault DraftRecord :=
  if source.isKey && target.isKey then
    .ok { d with weights := countRecord ⟨source, relation, target⟩ d.weights }
  else .error .wrongType

/-- Puts in the node that a target needs. -/
def bind (d : DraftRecord) : Target → DraftRecord
  | .declared _ => d
  | .external kind name =>
      { d with nodes := insertRecord (externalNode kind name).record d.nodes }

/-- The graph of a draft, in order. -/
def graph (d : DraftRecord) : Except RecordFault GraphRecord :=
  GraphRecord.ordered { nodes := d.nodes, edges := d.weights.map fun (l, n) => l.edge n }

/-- The identifiers of the nodes, in ascending order. -/
def nodeIds (d : DraftRecord) : Except RecordFault (List Json) :=
  sortByKey id (d.nodes.map (·.id))

/-- The links with their counts as lists, in ascending order. -/
def linkRows (d : DraftRecord) : Except RecordFault (List Json) :=
  sortByKey id (d.weights.map fun (l, n) => l.row n)

end DraftRecord

/-! ## The record of a draft follows the draft -/

/-- Nodes are merged as their records are. -/
theorem Node.record_merge (m n : Node) : (m.merge n).record = m.record.merge n.record := by
  obtain ⟨id, label, kind, filePath, line, metadata⟩ := m
  simp only [Node.merge, Node.record, NodeRecord.merge, Metadata.ofFields_putAllNew,
    NodeRecord.mk.injEq, true_and, and_true]
  refine ⟨?_, ?_, ?_⟩
  · cases label <;> simp [Json.truthy, Json.text, Text.points]
  · rcases filePath
      with _ | (_ | _) <;> simp [Json.truthy, Json.ofText?, Json.text, Text.points]
  · cases line <;> simp

/-- Links are the same if their records are. -/
theorem Link.same_record (k l : Link) : k.record.same l.record = decide (k = l) := by
  obtain ⟨source, relation, target⟩ := k
  obtain ⟨source', relation', target'⟩ := l
  by_cases h : relation = relation' <;>
    simp [LinkRecord.same, Link.record, Json.identical_text, h]

/-- Nodes are put in as their records are. -/
theorem insertRecord_map (n : Node) (ms : List Node) :
    insertRecord n.record (ms.map Node.record) = (insertNode n ms).map Node.record := by
  induction ms with
  | nil => rfl
  | cons m ms ih =>
    have same_id : m.record.id.identical n.record.id = decide (m.id = n.id) :=
      Json.identical_text ..
    by_cases h : m.id = n.id <;>
      simp [insertRecord, insertNode, same_id, h, ih, Node.record_merge]

/-- References are counted as their records are. -/
theorem countRecord_map (l : Link) (ws : List (Link × Nat)) :
    countRecord l.record (ws.map fun (k, n) => (k.record, n)) =
      (countLink l ws).map fun (k, n) => (k.record, n) := by
  induction ws with
  | nil => rfl
  | cons w ws ih =>
    obtain ⟨k, n⟩ := w
    by_cases h : k = l <;> simp [countRecord, countLink, Link.same_record, h, ih]

namespace Draft

/-- A node is put into the record of a draft as it is put into the draft. -/
theorem record_insert (d : Draft) (n : Node) :
    d.record.insert n.record = .ok (d.insert n).record := by
  simp only [DraftRecord.insert, Draft.record, insertRecord_map]
  rfl

/-- A reference is counted in the record of a draft as it is counted in the draft. -/
theorem record_refer (d : Draft) (source : Text) (relation : Relation) (target : Text) :
    d.record.refer (.text source) relation (.text target) =
      .ok (d.refer source relation target).record := by
  have counted := countRecord_map ⟨source, relation, target⟩ d.weights
  exact congrArg (fun ws => Except.ok { d.record with weights := ws }) counted

end Draft

end SymbolGraph
