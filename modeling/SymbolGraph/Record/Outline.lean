import SymbolGraph.Draft.Build
import SymbolGraph.Record.Read
set_option autoImplicit false

/-!
# Outlines as they are exchanged

An outline that comes from outside has the parts of an outline, each whatever JSON value was
given: lines, flags and docstrings are taken over as they are. What an identifier is made of
must be a text, except the line and the name of a method, which are written out as they are
shown.
-/

namespace SymbolGraph

namespace Json

/-- The text that a value must be. -/
def name (v : Json) : Except RecordFault Text :=
  match v.text? with
  | some t => .ok t
  | none => .error .notAText

/-- The value as a text, whatever it is. -/
def written (v : Json) : Text := v.plain.shown

/-- A list of the items that reading through a value gives. -/
def listed (v : Json) : Except RecordFault Json :=
  match v.items? with
  | some vs => .ok (.arr vs)
  | none => .error .wrongType

/-- A string is an item of a list, or a key of an object. -/
def holds (s : String) : Json → Bool
  | arr vs => ofString s ∈ vs
  | obj fs => Assoc.contains (Points.ofString s) fs
  | _ => false

/-- A text is its own name. -/
@[simp] theorem name_text (t : Text) : (text t).name = .ok t := by simp [name]

/-- A text is written as it is. -/
@[simp] theorem written_text (t : Text) : (text t).written = t := Points.shown_points t

/-- An integer is written in decimal. -/
@[simp] theorem written_int (n : Int) : (int n).written = Text.ofInt n := Points.shown_points _

/-- A list of texts is listed as it is. -/
@[simp] theorem listed_ofTexts (ts : List Text) : (ofTexts ts).listed = .ok (ofTexts ts) := rfl

end Json

/-- A function or a method as exchanged. -/
structure FunctionRecord where
  name : Json
  line : Json
  parameters : Json := .arr []
  returnHint : Json := .null
  isAsync : Json := .bool false
  isPrivate : Json := .bool false
  decorators : Json := .arr []
  docstring : Json := .null
  excerpt : Json := .null
  /-- The names of what is called. -/
  calls : List Json := []
  deriving DecidableEq, Repr

/-- A class as exchanged. -/
structure ClassRecord where
  name : Json
  line : Json
  bases : Json := .arr []
  decorators : Json := .arr []
  docstring : Json := .null
  excerpt : Json := .null
  methods : List FunctionRecord := []
  deriving DecidableEq, Repr

/-- An imported name as exchanged. -/
structure ImportedNameRecord where
  name : Json
  boundAs : Json := .null
  deriving DecidableEq, Repr

/-- An import as exchanged. -/
structure ImportRecord where
  /-- The word that names its form. -/
  style : Json
  path : Json
  names : List ImportedNameRecord := []
  deriving DecidableEq, Repr

/-- A variable as exchanged. -/
structure VariableRecord where
  name : Json
  line : Json
  snippet : Json := .null
  deriving DecidableEq, Repr

/-- An outline as exchanged. -/
structure OutlineRecord where
  filePath : Json
  moduleName : Json
  classes : List ClassRecord := []
  functions : List FunctionRecord := []
  imports : List ImportRecord := []
  globals : List VariableRecord := []
  deriving DecidableEq, Repr

/-! ## Records of an outline -/

/-- The record of a function. -/
def FunctionDecl.record (f : FunctionDecl) : FunctionRecord :=
  { name := .text f.name, line := .int f.firstLine, parameters := Json.ofTexts f.parameters
    returnHint := Json.ofText? f.returnHint, isAsync := Json.ofBool? f.isAsync
    isPrivate := Json.ofBool? f.isPrivate, decorators := Json.ofTexts f.decorators
    docstring := Json.ofText? f.docstring, excerpt := Json.ofText? f.excerpt
    calls := f.calls.map fun c => .text c.name }

/-- The record of a class. -/
def ClassDecl.record (c : ClassDecl) : ClassRecord :=
  { name := .text c.name, line := .int c.firstLine, bases := Json.ofTexts c.bases
    decorators := Json.ofTexts c.decorators, docstring := Json.ofText? c.docstring
    excerpt := Json.ofText? c.excerpt, methods := c.methods.map FunctionDecl.record }

/-- The record of an imported name. -/
def ImportedName.record (n : ImportedName) : ImportedNameRecord :=
  { name := .text n.name, boundAs := Json.ofText? n.boundAs }

/-- The record of an import. -/
def ImportDecl.record (i : ImportDecl) : ImportRecord :=
  { style := Json.ofString i.style.word, path := .text i.path
    names := i.names.map ImportedName.record }

/-- The record of a variable. -/
def VariableDecl.record (v : VariableDecl) : VariableRecord :=
  { name := .text v.name, line := .int v.line, snippet := Json.ofText? v.snippet }

/-- The record of an outline. -/
def Outline.record (o : Outline) : OutlineRecord :=
  { filePath := Json.ofText? o.filePath, moduleName := .text o.moduleName
    classes := o.classes.map ClassDecl.record, functions := o.functions.map FunctionDecl.record
    imports := o.imports.map ImportDecl.record, globals := o.globals.map VariableDecl.record }

/-! ## Nodes of declarations -/

/-- The metadata with the given members, without those that are null. -/
def presentMetadata (members : List (String × Json)) : Metadata :=
  Metadata.ofFields (presentFields (members.map fun (k, v) =>
    (k, if v = .null then none else some v)))

/-- The node of a module with the given name. -/
def OutlineRecord.node (o : OutlineRecord) (scope : Text) : NodeRecord :=
  { id := .text (moduleId scope), label := .text scope, kind := .module_, filePath := o.filePath
    line := .int 1, metadata := presentMetadata [("moduleName", .text scope)] }

/-- The identifier of a class. -/
def ClassRecord.id (c : ClassRecord) (scope : Text) : Except RecordFault Text := do
  return nodeIdAt scope .class_ (← c.name.name) c.line.written

/-- The node of a class. -/
def ClassRecord.node (c : ClassRecord) (o : OutlineRecord) (scope : Text) :
    Except RecordFault NodeRecord := do
  let id ← c.id scope
  let bases ← c.bases.listed
  let decorators ← c.decorators.listed
  return { id := .text id, label := c.name, kind := .class_, filePath := o.filePath
           line := c.line
           metadata := presentMetadata [
             ("module", .text scope), ("baseClasses", bases), ("decorators", decorators),
             ("docstring", c.docstring), ("code", c.excerpt)] }

/-- The label of a function: a method's is qualified by its class, unless the class has no
name. -/
def FunctionRecord.label (f : FunctionRecord) : Option Text → Except RecordFault Text
  | none | some [] => f.name.name
  | some c => .ok (qualifiedName c f.name.written)

/-- The identifier of a function, or of a method of a class. -/
def FunctionRecord.id (f : FunctionRecord) (scope : Text) (className : Option Text) :
    Except RecordFault Text := do
  return nodeIdAt scope .function (← f.label className) f.line.written

/-- The node of a function, or of a method of a class. -/
def FunctionRecord.node (f : FunctionRecord) (o : OutlineRecord) (scope : Text)
    (className : Option Text) : Except RecordFault NodeRecord := do
  let label ← f.label className
  let id ← f.id scope className
  let parameters ← f.parameters.listed
  let decorators ← f.decorators.listed
  return { id := .text id, label := .text label
           kind := .function, filePath := o.filePath, line := f.line
           metadata := presentMetadata [
             ("module", .text scope), ("class", Json.ofText? className),
             ("parameters", parameters), ("returnHint", f.returnHint), ("isAsync", f.isAsync),
             ("isPrivate", f.isPrivate), ("decorators", decorators), ("docstring", f.docstring),
             ("code", f.excerpt)] }

/-- The node of a variable. -/
def VariableRecord.node (v : VariableRecord) (o : OutlineRecord) (scope : Text) :
    Except RecordFault NodeRecord := do
  let name ← v.name.name
  return { id := .text (nodeIdAt scope .variable_ name v.line.written), label := v.name
           kind := .variable_, filePath := o.filePath, line := v.line
           metadata := presentMetadata [("module", .text scope), ("valueSnippet", v.snippet)] }

/-! ## Names brought in by imports -/

/-- A value that must be one that may be a key. -/
def Json.key (v : Json) : Except RecordFault Json :=
  if v.isKey then .ok v else .error .wrongType

namespace ImportRecord

/-- The import has the form `import a, b`. -/
def isPlain (i : ImportRecord) : Bool := i.style = Json.ofString ImportStyle.plain.word

/-- What a name stands for that an import brings in, by the value that is bound to it. -/
def binding (i : ImportRecord) (n : ImportedNameRecord) : Except RecordFault (Json × Text) :=
  if i.isPlain then
    if n.boundAs.truthy then do
      let bound ← n.boundAs.key
      return (bound, ← n.name.name)
    else do
      let name ← n.name.name
      return (.text (Text.firstSegment name), name)
  else do
    let bound ← (if n.boundAs.truthy then n.boundAs else n.name).key
    return (bound, qualifiedName i.path.written n.name.written)

/-- The names that an import binds, each with what it stands for, and the modules that it refers
to. -/
def bindings (i : ImportRecord) : Except RecordFault (List (Json × Text) × List Text) := do
  let bound ← i.names.mapM i.binding
  if i.isPlain then return (bound, bound.map fun b => topLevelModule b.2)
  else return (bound, [topLevelModule (← i.path.name)])

end ImportRecord

/-- What the imports of a file bring in. -/
structure Imported where
  /-- What each name stands for; of two bindings of a name the later holds. -/
  bindings : List (Json × Text)
  /-- The modules, each once, in ascending order. -/
  modules : List Text

namespace Imported

/-- The bindings of texts. -/
def aliases (i : Imported) : List (Text × Text) :=
  i.bindings.filterMap fun (k, t) => k.text?.map fun name => (name, t)

/-- The bindings as a table. -/
def table (i : Imported) : Metadata := i.bindings.map fun (k, t) => (k, .text t)

end Imported

/-- Binds a name, in its place if it is bound. -/
def bindName (k : Json) (t : Text) : List (Json × Text) → List (Json × Text)
  | [] => [(k, t)]
  | (l, u) :: rest => if l.identical k then (l, t) :: rest else (l, u) :: bindName k t rest

/-- What the imports of a file bring in. -/
def OutlineRecord.imported (o : OutlineRecord) : Except RecordFault Imported := do
  let all ← o.imports.mapM ImportRecord.bindings
  return { bindings := (all.flatMap (·.1)).foldl (fun bs (k, t) => bindName k t bs) []
           modules := ((all.flatMap (·.2)).eraseDups.filter (· ≠ [])).mergeSort Text.le }

end SymbolGraph
