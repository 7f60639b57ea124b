import SymbolGraph.Draft.Resolve
import SymbolGraph.Outline.Basic
set_option autoImplicit false

/-!
# From outlines to a draft

Two passes over the outlines. The first puts in a node for everything that is declared, with the
`defines` references, and fills the tables. The second resolves imports, calls and base classes
against the full tables.
-/

namespace SymbolGraph

open Text

/-- Members of the metadata, without those that are missing. -/
def presentFields (fields : List (String × Option Json)) : Fields :=
  fields.filterMap fun (k, v) => v.map fun v => (Points.ofString k, v)

/-! ## Nodes of declarations -/

/-- The node of a module. -/
def Outline.node (o : Outline) : Node :=
  { id := moduleId o.moduleName, label := o.moduleName, kind := .module_
    filePath := o.filePath, line := some 1
    metadata := presentFields [("moduleName", some (.text o.moduleName))] }

/-- The node of a class. -/
def ClassDecl.node (c : ClassDecl) (o : Outline) : Node :=
  { id := nodeId o.moduleName .class_ c.name c.firstLine, label := c.name, kind := .class_
    filePath := o.filePath, line := some c.firstLine
    metadata := presentFields [
      ("module", some (.text o.moduleName)), ("baseClasses", some (Json.ofTexts c.bases)),
      ("decorators", some (Json.ofTexts c.decorators)), ("docstring", c.docstring.map .text),
      ("code", c.excerpt.map .text)] }

/-- The label of a function: a method's is qualified by its class, unless the class has no
name. -/
def FunctionDecl.label (f : FunctionDecl) : Option Text → Text
  | none | some [] => f.name
  | some c => qualifiedName c f.name

/-- The node of a function, or of a method of a class. -/
def FunctionDecl.node (f : FunctionDecl) (o : Outline) (className : Option Text) : Node :=
  { id := nodeId o.moduleName .function (f.label className) f.firstLine
    label := f.label className
    kind := .function, filePath := o.filePath, line := some f.firstLine
    metadata := presentFields [
      ("module", some (.text o.moduleName)), ("class", className.map .text),
      ("parameters", some (Json.ofTexts f.parameters)), ("returnHint", f.returnHint.map .text),
      ("isAsync", f.isAsync.map .bool), ("isPrivate", f.isPrivate.map .bool),
      ("decorators", some (Json.ofTexts f.decorators)), ("docstring", f.docstring.map .text),
      ("code", f.excerpt.map .text)] }

/-- The node of a variable. -/
def VariableDecl.node (v : VariableDecl) (o : Outline) : Node :=
  { id := nodeId o.moduleName .variable_ v.name v.line, label := v.name, kind := .variable_
    filePath := o.filePath, line := some v.line
    metadata := presentFields [
      ("module", some (.text o.moduleName)), ("valueSnippet", v.snippet.map .text)] }

/-! ## Names brought in by imports -/

/-- The alias if there is one that is not empty, else the first segment of the name. -/
def ImportedName.boundFirst (n : ImportedName) : Text :=
  match n.boundAs with
  | none | some [] => firstSegment n.name
  | some a => a

/-- The names that an import binds, each with what it stands for. -/
def ImportDecl.bindings (i : ImportDecl) : List (Text × Text) :=
  match i.style with
  | .plain => i.names.map fun n => (n.boundFirst, n.name)
  | .fromModule => i.names.map fun n => (n.bound, qualifiedName i.path n.name)

/-- The modules that an import refers to. -/
def ImportDecl.modules (i : ImportDecl) : List Text :=
  match i.style with
  | .plain => i.names.map fun n => topLevelModule n.name
  | .fromModule => [topLevelModule i.path]

/-- The names that a file's imports bind; of two bindings of a name the later holds. -/
def Outline.aliases (o : Outline) : List (Text × Text) :=
  Assoc.putAll [] (o.imports.flatMap ImportDecl.bindings)

/-- The modules that a file imports, each once, in ascending order. -/
def Outline.importedModules (o : Outline) : List Text :=
  ((o.imports.flatMap ImportDecl.modules).eraseDups.filter (· ≠ [])).mergeSort Text.le

namespace Draft

/-! ## First pass: declarations -/

/-- Puts in a method of a class. -/
def declareMethod (o : Outline) (c : ClassDecl) (d : Draft) (f : FunctionDecl) : Draft :=
  let n := f.node o (some c.name)
  let d := d.insert n
  let d := { d with methods := Assoc.put (o.moduleName, c.name, f.name) n.id d.methods }
  d.refer (c.node o).id .defines n.id

/-- Puts in a class with its methods. -/
def declareClass (o : Outline) (d : Draft) (c : ClassDecl) : Draft :=
  let n := c.node o
  let d := d.insert n
  let d := { d with classes := Assoc.put (o.moduleName, c.name) n.id d.classes }
  let d := d.refer (moduleId o.moduleName) .defines n.id
  c.methods.foldl (declareMethod o c) d

/-- Puts in a top-level function. -/
def declareFunction (o : Outline) (d : Draft) (f : FunctionDecl) : Draft :=
  let n := f.node o none
  let d := d.insert n
  let d := { d with functions := Assoc.put (o.moduleName, f.name) n.id d.functions }
  d.refer (moduleId o.moduleName) .defines n.id

/-- Puts in a variable. -/
def declareVariable (o : Outline) (d : Draft) (v : VariableDecl) : Draft :=
  let n := v.node o
  (d.insert n).refer (moduleId o.moduleName) .defines n.id

/-- Puts in a module with all that it declares. -/
def declare (d : Draft) (o : Outline) : Draft :=
  let d := d.insert o.node
  let d := o.classes.foldl (declareClass o) d
  let d := o.functions.foldl (declareFunction o) d
  o.globals.foldl (declareVariable o) d

/-! ## Second pass: references -/

/-- Refers to an imported module. -/
def linkImport (o : Outline) (d : Draft) (name : Text) : Draft :=
  let n := externalNode .module_ name
  (d.insert n).refer (moduleId o.moduleName) .imports n.id

/-- The names that imports bind, by the metadata of a module's node. -/
def notedAliases (metadata : Fields) : Fields :=
  match Assoc.get? (Points.ofString "importAliases") metadata with
  | some (.obj fs) => fs
  | _ => []

/-- The metadata of a module's node with the names that imports bind; names bound before keep
what they stand for. -/
def withAliases (metadata : Fields) (aliases : List (Text × Text)) : Fields :=
  let bound : Fields := aliases.map fun (k, v) => (k.points, .text v)
  Assoc.put (Points.ofString "importAliases")
    (.obj (Assoc.putAllNew (notedAliases metadata) bound)) metadata

/-- Notes the names that imports bind on the module's node. -/
def noteAliases (o : Outline) (d : Draft) : Draft :=
  { d with nodes := d.nodes.map fun n =>
      if n.id = moduleId o.moduleName
        then { n with metadata := withAliases n.metadata o.aliases }
      else n }

/-- Refers to what a call names. -/
def linkCall (o : Outline) (source : Text) (within : Option Text) (d : Draft) (c : CallSite) :
    Draft :=
  let t := d.callTarget o.moduleName c.name within o.aliases
  (d.bind t).refer source t.callRelation t.id

/-- Refers to what a function calls. -/
def linkFunction (o : Outline) (d : Draft) (f : FunctionDecl) : Draft :=
  f.calls.foldl (linkCall o (nodeId o.moduleName .function f.name f.firstLine) none) d

/-- Refers to what a method calls. -/
def linkMethod (o : Outline) (c : ClassDecl) (d : Draft) (f : FunctionDecl) : Draft :=
  let source := nodeId o.moduleName .function (qualifiedName c.name f.name) f.firstLine
  f.calls.foldl (linkCall o source (some c.name)) d

/-- Refers to what a base class is. -/
def linkBase (o : Outline) (c : ClassDecl) (d : Draft) (base : Text) : Draft :=
  let t := d.baseTarget o.moduleName base
  (d.bind t).refer t.id .inherits (c.node o).id

/-- The base classes of a class; keyword arguments among the bases are none. -/
def baseNames (c : ClassDecl) : List Text := c.bases.filter fun b => ! b.contains '='

/-- Refers to all that a module's declarations refer to. -/
def link (d : Draft) (o : Outline) : Draft :=
  let d := o.importedModules.foldl (linkImport o) d
  let d := noteAliases o d
  let d := o.functions.foldl (linkFunction o) d
  let d := o.classes.foldl (fun d c => c.methods.foldl (linkMethod o c) d) d
  o.classes.foldl (fun d c => (baseNames c).foldl (linkBase o c) d) d

/-- The draft of some outlines. -/
def build (os : List Outline) : Draft := os.foldl link (os.foldl declare {})

end Draft

/-- The graph of some outlines. -/
def Graph.build (os : List Outline) : Graph := (Draft.build os).graph

end SymbolGraph
