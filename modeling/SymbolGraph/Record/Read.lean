import SymbolGraph.Record.Basic
set_option autoImplicit false

/-!
# Reading a graph from JSON

A graph is an object with lists of nodes and edges, either of which may be missing. The first
fault found is reported, nodes before edges and each in order; within a node the identifier, the
label and the kind are looked for in that order, within an edge the source, the target and the
relation.
-/

namespace SymbolGraph

namespace Json

/-- The items that reading through a value gives: those of a list, the keys of an object, the
points of a string. -/
def items? : Json → Option (List Json)
  | arr vs => some vs
  | obj fs => some (fs.map fun (k, _) => .str k)
  | str s => some (s.map fun p => .str [p])
  | _ => none

/-- A member that must be there, of a value that must be an object. -/
def member (v : Json) (key : String) : Except RecordFault Json :=
  match v with
  | obj fs =>
    match Assoc.get? (Points.ofString key) fs with
    | some w => .ok w
    | none => .error (.missing key.toList)
  | _ => .error .wrongType

/-- A member that may be missing, of a value that must be an object. -/
def memberOr (v : Json) (key : String) (default : Json) : Except RecordFault Json :=
  match v with
  | obj fs => .ok ((Assoc.get? (Points.ofString key) fs).getD default)
  | _ => .error .notAnObject

/-- A pair out of a list of members. -/
def pair (index : Nat) (v : Json) : Except RecordFault (Json × Json) :=
  match v.items? with
  | none => .error .wrongType
  | some [k, w] => if k.isKey then .ok (k, w) else .error .wrongType
  | some vs => .error (.notAPair index vs.length)

/-- The pairs of a list, put into a table one after the other. -/
def pairs : Nat → Metadata → List Json → Except RecordFault Metadata
  | _, table, [] => .ok table
  | i, table, v :: vs =>
    match pair i v with
    | .error fault => .error fault
    | .ok (k, w) => pairs (i + 1) (table.put k w) vs

/-- The members that a value stands for: those of an object, or the pairs of a list; a value
that counts as false stands for the default. -/
def membersOr (v : Json) (default : Metadata) : Except RecordFault Metadata :=
  if ! v.truthy then .ok default
  else
    match v with
    | obj fs => .ok (Metadata.ofFields fs)
    | v =>
      match v.items? with
      | some vs => pairs 0 [] vs
      | none => .error .wrongType

end Json

open Json

/-- The kind that a value names. -/
def NodeKind.ofJson (v : Json) : Except RecordFault NodeKind :=
  ((v.text?.bind NodeKind.ofWord?).map Except.ok).getD (.error (.notAKind v))

/-- The relation that a value names. -/
def Relation.ofJson (v : Json) : Except RecordFault Relation :=
  ((v.text?.bind Relation.ofWord?).map Except.ok).getD (.error (.notARelation v))

/-- Reads a node. -/
def NodeRecord.ofJson (v : Json) : Except RecordFault NodeRecord := do
  let id ← member v "id"
  let label ← member v "label"
  let kind ← NodeKind.ofJson (← member v "type")
  let filePath ← memberOr v "filePath" .null
  let line ← memberOr v "line" .null
  let metadata ← membersOr (← memberOr v "metadata" .null) []
  return { id, label, kind, filePath, line, metadata }

/-- Reads an edge; one without metadata gets the given ones. -/
def EdgeRecord.ofJson (default : Metadata) (v : Json) : Except RecordFault EdgeRecord := do
  let id ← memberOr v "id" (.str [])
  let source ← member v "source"
  let target ← member v "target"
  let relation ← Relation.ofJson (← member v "relation")
  let metadata ← membersOr (← memberOr v "metadata" .null) default
  return { id, source, target, relation, metadata }

/-- Reads values one after the other, up to the first fault. -/
def readAll {α : Type} (read : Json → Except RecordFault α) :
    List Json → Except RecordFault (List α)
  | [] => .ok []
  | v :: vs =>
    match read v with
    | .error fault => .error fault
    | .ok a => (readAll read vs).map (a :: ·)

/-- Reads the items of a value. -/
def readItemsOf {α : Type} (read : Json → Except RecordFault α) (v : Json) :
    Except RecordFault (List α) :=
  match v.items? with
  | some vs => readAll read vs
  | none => .error .wrongType

namespace GraphRecord

/-- Reads a graph in the order in which it is written. The lists of nodes and edges must be
there, and an edge without metadata has none. -/
def ofJsonUnordered (v : Json) : Except RecordFault GraphRecord := do
  let nodes ← readItemsOf NodeRecord.ofJson (← member v "nodes")
  let edges ← readItemsOf (EdgeRecord.ofJson []) (← member v "edges")
  return { nodes, edges }

/-- Reads a graph and puts it in order. An edge without metadata stands for one reference. -/
def ofJson (v : Json) : Except RecordFault GraphRecord := do
  let nodes ← readItemsOf NodeRecord.ofJson (← memberOr v "nodes" (.arr []))
  let edges ← readItemsOf (EdgeRecord.ofJson (Metadata.ofWeight 1))
      (← memberOr v "edges" (.arr []))
  ordered { nodes, edges }

end GraphRecord

end SymbolGraph
