import SymbolGraph.Json.Basic
set_option autoImplicit false

/-!
# The graph

Nodes stand for what files declare and for the things outside that they refer to; edges say how
they are related, and how often. A graph that was built has its nodes and its edges in ascending
order of their identifiers.
-/

namespace SymbolGraph

/-- What a node stands for. -/
inductive NodeKind
  | module_
  | class_
  | function
  | variable_
  deriving DecidableEq, Repr

/-- How the source of an edge is related to its target. -/
inductive Relation
  | defines
  | imports
  | calls
  | inherits
  | uses
  deriving DecidableEq, Repr

namespace NodeKind

/-- All kinds. -/
def all : List NodeKind := [module_, class_, function, variable_]

/-- The word for a kind. -/
def word : NodeKind → Text
  | module_ => "module".toList
  | class_ => "class".toList
  | function => "function".toList
  | variable_ => "variable".toList

/-- The kind with the given word. -/
def ofWord? (t : Text) : Option NodeKind := all.find? (·.word = t)

theorem ofWord?_word (k : NodeKind) : ofWord? k.word = some k := by cases k <;> rfl

end NodeKind

namespace Relation

/-- All relations. -/
def all : List Relation := [defines, imports, calls, inherits, uses]

/-- The word for a relation. -/
def word : Relation → Text
  | defines => "defines".toList
  | imports => "imports".toList
  | calls => "calls".toList
  | inherits => "inherits".toList
  | uses => "uses".toList

/-- The relation with the given word. -/
def ofWord? (t : Text) : Option Relation := all.find? (·.word = t)

theorem ofWord?_word (r : Relation) : ofWord? r.word = some r := by cases r <;> rfl

end Relation

/-- A node. -/
structure Node where
  id : Text
  label : Text
  kind : NodeKind
  filePath : Option Text := none
  line : Option Int := none
  metadata : Fields := []
  deriving DecidableEq, Repr

/-- An edge without its weight: what is related to what. -/
structure Link where
  source : Text
  relation : Relation
  target : Text
  deriving DecidableEq, Repr

/-- An edge: a link, and the number of references that it stands for. -/
structure Edge where
  link : Link
  weight : Nat
  deriving DecidableEq, Repr

/-- A graph. -/
structure Graph where
  nodes : List Node := []
  edges : List Edge := []
  deriving DecidableEq, Repr

end SymbolGraph
