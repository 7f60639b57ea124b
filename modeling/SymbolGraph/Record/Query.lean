import SymbolGraph.Record.Basic
set_option autoImplicit false

/-!
# Queries

Two questions about a graph are answered by parts of it. The dependencies of a node are the
edges by which it calls or uses something; the hierarchy of a node is the edges by which it
inherits or is inherited from. Either part holds the node itself and the other ends of the edges
as far as they are nodes of the graph, and is in order.

A part shares its edges with the graph: identifiers filled in for the part are filled in for the
graph. So a query gives the graph back together with its answer.
-/

namespace SymbolGraph

/-- A list of records with distinct keys, a later record in the place of an earlier one. -/
def putRecord {α : Type} (key : α → Json) (a : α) : List α → List α
  | [] => [a]
  | b :: bs => if (key b).identical (key a) then a :: bs else b :: putRecord key a bs

/-- Records put into a list one after the other. -/
def putRecords {α : Type} (key : α → Json) (bs as : List α) : List α :=
  as.foldl (fun bs a => putRecord key a bs) bs

/-- Every record's key can be a key. -/
def checkKeys {α : Type} (key : α → Json) (as : List α) : Except RecordFault Unit :=
  if as.all fun a => (key a).isKey then .ok () else .error .wrongType

/-- Which edges a neighbourhood is made of. -/
structure Direction where
  relations : List Relation
  /-- The edges that leave the node, rather than those that reach it. -/
  outgoing : Bool

namespace Direction

/-- The end of an edge that must be the node asked about. -/
def anchor (d : Direction) (e : EdgeRecord) : Json := if d.outgoing then e.source else e.target

/-- The other end of an edge. -/
def other (d : Direction) (e : EdgeRecord) : Json := if d.outgoing then e.target else e.source

/-- The edge belongs to the neighbourhood of a node. -/
def selects (d : Direction) (id : Json) (e : EdgeRecord) : Bool :=
  d.relations.contains e.relation && (d.anchor e).same id

end Direction

namespace GraphRecord

/-- The first node with an identifier. -/
def node? (g : GraphRecord) (id : Json) : Option NodeRecord := g.nodes.find? (·.id.same id)

/-- The last node with an identifier, which is looked up as a key. -/
def lastNode? (g : GraphRecord) (id : Json) : Option NodeRecord :=
  g.nodes.reverse.find? (·.id.identical id)

/-- The nodes of a neighbourhood: the node asked about and the other ends that are nodes. -/
def neighbours (g : GraphRecord) (d : Direction) (center : NodeRecord)
    (edges : List EdgeRecord) : List NodeRecord :=
  putRecords NodeRecord.id [center] (edges.filterMap fun e => g.lastNode? (d.other e))

/-- The neighbourhood of a node, and the graph with the identifiers that were filled in. Of a
node that is not there it is empty. -/
def neighbourhood (g : GraphRecord) (d : Direction) (id : Json) :
    Except RecordFault GraphRecord × GraphRecord :=
  match g.node? id with
  | none => (.ok {}, g)
  | some center =>
    let edges := g.edges.filter (d.selects id)
    match checkKeys NodeRecord.id g.nodes, checkKeys d.other edges with
    | .ok (), .ok () =>
      let nodes := g.neighbours d center edges
      let held := { g with edges := (EdgeRecord.fillIds (d.selects id) g.edges).1 }
      (ordered { nodes, edges }, held)
    | .error fault, _ | .ok (), .error fault => (.error fault, g)

/-- What a node calls or uses. -/
def dependencies (g : GraphRecord) (id : Json) : Except RecordFault GraphRecord × GraphRecord :=
  g.neighbourhood { relations := [.calls, .uses], outgoing := true } id

/-- Two parts of a graph as one, without repetitions. -/
def union (a b : GraphRecord) : Except RecordFault GraphRecord := do
  let nodes := a.nodes ++ b.nodes
  let edges := a.edges ++ b.edges
  checkKeys NodeRecord.id nodes
  checkKeys EdgeRecord.id edges
  ordered
    { nodes := putRecords NodeRecord.id [] nodes, edges := putRecords EdgeRecord.id [] edges }

/-- What a node inherits from, and what inherits from it. -/
def hierarchy (g : GraphRecord) (id : Json) : Except RecordFault GraphRecord × GraphRecord :=
  match g.neighbourhood { relations := [.inherits], outgoing := false } id with
  | (.error fault, held) => (.error fault, held)
  | (.ok bases, held) =>
    match held.neighbourhood { relations := [.inherits], outgoing := true } id with
    | (.error fault, held) => (.error fault, held)
    | (.ok derived, held) => (union bases derived, held)

/-- The edges of a relation. -/
def edgesFor (g : GraphRecord) (r : Relation) : List EdgeRecord :=
  g.edges.filter (·.relation = r)

/-- An edge is listed for a relation just when it is an edge of the graph with that relation. -/
@[simp] theorem mem_edgesFor {g : GraphRecord} {r : Relation} {e : EdgeRecord} :
    e ∈ g.edgesFor r ↔ e ∈ g.edges ∧ e.relation = r := by
  simp [edgesFor]

/-- How often each word occurs, in the order of first occurrences. -/
def tally (words : List Text) : List (Text × Nat) :=
  words.foldl (fun t w => Assoc.put w ((Assoc.get? w t).getD 0 + 1) t) []

/-- The counts of a graph: nodes by kind, edges by relation, nodes from outside, and all. -/
def counts (g : GraphRecord) : Json :=
  let table (words : List Text) : Json :=
    .obj ((tally words).map fun (w, n) => (w.points, .int n))
  Json.ofFields [
    ("nodes", table (g.nodes.map (·.kind.word))),
    ("relationships", table (g.edges.map (·.relation.word))),
    ("external_nodes", .int (g.nodes.countP (·.isExternal))),
    ("total_nodes", .int g.nodes.length),
    ("total_edges", .int g.edges.length)]

end GraphRecord

end SymbolGraph
