import SymbolGraph.Graph.Basic
set_option autoImplicit false

/-!
# Identifiers

A node's identifier has four parts with colons between them: the scope, the kind, the name and
the line. An edge's identifier is its link with bars between the parts. A bar inside a node's
identifier becomes an underscore, so that an edge's identifier can be taken apart again.
-/

namespace SymbolGraph

open Text

/-- The identifier with the given parts, where the line is any text. -/
def nodeIdAt (scope : Text) (kind : NodeKind) (name line : Text) : Text :=
  join [':'] ([scope, kind.word, name, line].map (replaceChar '|' '_'))

/-- The identifier with the given parts. -/
def nodeId (scope : Text) (kind : NodeKind) (name : Text) (line : Int) : Text :=
  nodeIdAt scope kind name (Text.ofInt line)

/-- The identifier of a module. -/
def moduleId (name : Text) : Text := nodeId name .module_ name 1

/-- The scope of what no file declares. -/
def externalScope : Text := "external".toList

/-- The identifier of something that no file declares. -/
def externalId (kind : NodeKind) (name : Text) : Text := nodeId externalScope kind name 0

/-- The name of a method, qualified by its class. -/
def qualifiedName (className method : Text) : Text := className ++ ['.'] ++ method

/-- The identifier of an edge. -/
def Link.id (l : Link) : Text := join ['|'] [l.source, l.relation.word, l.target]

/-- The identifier of an edge. -/
def Edge.id (e : Edge) : Text := e.link.id

/-- The first segment of a dotted path, with the dots that a relative path starts with. -/
def topLevelModule (path : Text) : Text :=
  path.takeWhile (· = '.') ++ firstSegment (path.dropWhile (· = '.'))

end SymbolGraph
