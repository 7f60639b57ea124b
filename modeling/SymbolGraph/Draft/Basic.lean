import SymbolGraph.Graph.Id
set_option autoImplicit false

/-!
# A graph under construction

A draft holds the nodes and the reference counts gathered so far, and the tables by which
references find what they name. Each node has one entry: a second node with its identifier is
merged into the first, whose values win where it has any. Each link has one count.
-/

namespace SymbolGraph

/-- The tables by which references find what they name: each gives the identifier of a node. -/
structure Names where
  /-- Top-level functions, by module and name. -/
  functions : List ((Text × Text) × Text) := []
  /-- Classes, by module and name. -/
  classes : List ((Text × Text) × Text) := []
  /-- Methods, by module, class and name. -/
  methods : List ((Text × Text × Text) × Text) := []
  deriving DecidableEq, Repr

/-- A graph under construction. -/
structure Draft extends Names where
  /-- The nodes, in the order in which they were first put in. -/
  nodes : List Node := []
  /-- How often each link was referred to, in the order of the first references. -/
  weights : List (Link × Nat) := []
  deriving DecidableEq, Repr

/-- One node made of two with the same identifier. The label and the path are the first that are
not empty, the line is the first that is there, and each member of the metadata is the first. -/
def Node.merge (old new : Node) : Node :=
  { old with
    label := if old.label = [] then new.label else old.label
    filePath :=
      match old.filePath with
      | none | some [] => new.filePath
      | some path => some path
    line := old.line.or new.line
    metadata := Assoc.putAllNew old.metadata new.metadata }

/-- Puts a node among others, merged into the one with its identifier if there is one. -/
def insertNode (n : Node) : List Node → List Node
  | [] => [n]
  | m :: ms => if m.id = n.id then m.merge n :: ms else m :: insertNode n ms

/-- Counts one more reference. -/
def countLink (l : Link) : List (Link × Nat) → List (Link × Nat)
  | [] => [(l, 1)]
  | (k, n) :: rest => if k = l then (k, n + 1) :: rest else (k, n) :: countLink l rest

namespace Draft

/-- The node with an identifier. -/
def node? (d : Draft) (id : Text) : Option Node := d.nodes.find? (·.id = id)

/-- Puts a node in. Nodes are values: no two of them share their metadata, so that what is
merged into the metadata of one, where it stands, shows in no other. -/
def insert (d : Draft) (n : Node) : Draft := { d with nodes := insertNode n d.nodes }

/-- Counts one more reference. -/
def refer (d : Draft) (source : Text) (relation : Relation) (target : Text) : Draft :=
  { d with weights := countLink ⟨source, relation, target⟩ d.weights }

/-- The graph of a draft: its nodes and edges in ascending order of their identifiers. -/
def graph (d : Draft) : Graph :=
  { nodes := d.nodes.mergeSort fun a b => Text.le a.id b.id
    edges := (d.weights.map fun (l, n) => Edge.mk l n).mergeSort fun a b => Text.le a.id b.id }

end Draft

/-- The node for something that no file declares. -/
def externalNode (kind : NodeKind) (name : Text) : Node :=
  { id := externalId kind name, label := name, kind
    metadata := [(Points.ofString "external", .bool true)] }

/-! ## Names, listed

The tables of names as rows of texts in ascending order. Rows compare by their first texts that
differ. -/

/-- The order of rows: by the first texts that differ, a shorter row before a longer one. -/
def rowLe : List Text → List Text → Bool
  | [], _ => true
  | _ :: _, [] => false
  | a :: as, b :: bs => if a = b then rowLe as bs else Text.le a b

namespace Names

/-- The top-level functions as rows of module, name and identifier, in ascending order. -/
def functionRows (names : Names) : List (List Text) :=
  (names.functions.map fun ((scope, name), id) => [scope, name, id]).mergeSort rowLe

/-- The classes as rows of module, name and identifier, in ascending order. -/
def classRows (names : Names) : List (List Text) :=
  (names.classes.map fun ((scope, name), id) => [scope, name, id]).mergeSort rowLe

/-- The methods as rows of module, class, name and identifier, in ascending order. -/
def methodRows (names : Names) : List (List Text) :=
  (names.methods.map fun ((scope, className, name), id) =>
    [scope, className, name, id]).mergeSort rowLe

end Names

end SymbolGraph
