import SymbolGraph.Draft.Basic
set_option autoImplicit false

/-!
# What references name

A reference names something that was declared or, failing that, something outside. Which of the
two is decided by the tables of names alone; `bind` then puts a node for the outside thing in.

A dotted call on `self` or `cls` looks in the enclosing class; any other dotted call looks for a
class of the module. A call of a bare name looks for a function of the module, then for a method
of the enclosing class. What is not found is named by the import that brought its first segment
in. A base class is looked for in its module, then in all modules, where the least identifier
wins.
-/

namespace SymbolGraph

open Text

/-- What a reference names. -/
inductive Target
  /-- A node that was declared. -/
  | declared (id : Text)
  /-- Something that no file declares. -/
  | external (kind : NodeKind) (name : Text)
  deriving DecidableEq, Repr

namespace Target

/-- The identifier of the node named. -/
def id : Target → Text
  | declared id => id
  | external kind name => externalId kind name

/-- The relation of a call: to what was declared it is a call, to what is outside a use. -/
def callRelation : Target → Relation
  | declared _ => .calls
  | external .. => .uses

end Target

/-- The names by which a method calls others of its class. -/
def selfNames : List Text := ["self".toList, "cls".toList]

namespace Names

/-- A method of the class, if one is given and its name is not empty. -/
def methodOf? (names : Names) (scope : Text) (className : Option Text) (method : Text) :
    Option Text :=
  match className with
  | none | some [] => none
  | some c => Assoc.get? (scope, c, method) names.methods

/-- What a dotted call names. -/
def dottedTarget (names : Names) (scope name : Text) (within : Option Text)
    (aliases : List (Text × Text)) : Target :=
  let base := firstSegment name
  let method := lastSegment name
  if base ∈ selfNames then
    match names.methodOf? scope within method with
    | some id => .declared id
    | none => .external .function method
  else
    let found :=
      if Assoc.contains (scope, base) names.classes then
        Assoc.get? (scope, base, method) names.methods
      else none
    match found with
    | some id => .declared id
    | none => .external .function ((Assoc.get? base aliases).getD name)

/-- What a call of a bare name names. -/
def bareTarget (names : Names) (scope name : Text) (within : Option Text)
    (aliases : List (Text × Text)) : Target :=
  match (Assoc.get? (scope, name) names.functions).or (names.methodOf? scope within name) with
  | some id => .declared id
  | none => .external .function ((Assoc.get? name aliases).getD name)

/-- What a call in module `scope`, within a class or not, names. -/
def callTarget (names : Names) (scope name : Text) (within : Option Text)
    (aliases : List (Text × Text)) : Target :=
  if '.' ∈ name then names.dottedTarget scope name within aliases
  else names.bareTarget scope name within aliases

/-- The least of some texts. -/
def least? : List Text → Option Text
  | [] => none
  | t :: ts =>
    match least? ts with
    | none => some t
    | some u => some (if Text.le t u then t else u)

/-- The class with a name in any module: of several the one with the least identifier. -/
def classAnywhere? (names : Names) (name : Text) : Option Text :=
  least? ((names.classes.filter fun c => c.1.2 = name).map (·.2))

/-- What a base class is, by the classes of all modules. -/
def baseAnywhere (names : Names) (base : Text) : Target :=
  match names.classAnywhere? base with
  | some id => .declared id
  | none => .external .class_ base

/-- What a base class named in module `scope` is. -/
def baseTarget (names : Names) (scope base : Text) : Target :=
  match Assoc.get? (scope, base) names.classes with
  | some id => .declared id
  | none => names.baseAnywhere base

end Names

/-- Puts in the node that a target needs. -/
def Draft.bind (d : Draft) : Target → Draft
  | .declared _ => d
  | .external kind name => d.insert (externalNode kind name)

end SymbolGraph
