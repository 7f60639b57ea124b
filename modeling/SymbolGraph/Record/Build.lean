import SymbolGraph.Draft.Basic
import SymbolGraph.Record.Draft
import SymbolGraph.Record.Outline
set_option autoImplicit false

/-!
# From exchanged outlines to a draft

The two passes over outlines, for outlines whose parts are any JSON values. The first fault that
the passes meet is reported.
-/

namespace SymbolGraph

/-- Puts in the row of a method, in its place if there is one for the name. -/
def putRow (scope className : Text) (name : Json) (id : Text) :
    List (Text × Text × Json × Text) → List (Text × Text × Json × Text)
  | [] => [(scope, className, name, id)]
  | (s, c, n, i) :: rest =>
    if s = scope ∧ c = className ∧ n.identical name then (s, c, n, id) :: rest
    else (s, c, n, i) :: putRow scope className name id rest

/-- The node with the names that imports bind noted in its metadata. -/
def NodeRecord.noting (n : NodeRecord) (aliases : Metadata) : NodeRecord :=
  { n with metadata := n.metadata.put (Json.ofString "importAliases") (.obj aliases.fields) }

namespace DraftRecord

/-! ## First pass: declarations -/

/-- Notes a method in the table of methods. -/
def nameMethod (d : DraftRecord) (scope className : Text) (name : Json) (id : Text) :
    Except RecordFault DraftRecord :=
  if name.isKey then
    .ok { d with
      methods := match name.text? with
        | some t => Assoc.put (scope, className, t) id d.methods
        | none => d.methods
      methodRecords := putRow scope className name id d.methodRecords }
  else .error .wrongType

/-- Puts in a method of a class. -/
def declareMethod (o : OutlineRecord) (scope : Text) (c : ClassRecord) (d : DraftRecord)
    (f : FunctionRecord) : Except RecordFault DraftRecord := do
  let className ← c.name.name
  let n ← f.node o scope (some className)
  let d ← d.insert n
  let d ← d.nameMethod scope className f.name (← f.id scope (some className))
  d.refer (.text (← c.id scope)) .defines n.id

/-- Puts in a class with its methods. -/
def declareClass (o : OutlineRecord) (scope : Text) (d : DraftRecord) (c : ClassRecord) :
    Except RecordFault DraftRecord := do
  let n ← c.node o scope
  let d ← d.insert n
  let d := { d with classes := Assoc.put (scope, ← c.name.name) (← c.id scope) d.classes }
  let d ← d.refer (.text (moduleId scope)) .defines n.id
  c.methods.foldlM (declareMethod o scope c) d

/-- Puts in a top-level function. -/
def declareFunction (o : OutlineRecord) (scope : Text) (d : DraftRecord) (f : FunctionRecord) :
    Except RecordFault DraftRecord := do
  let n ← f.node o scope none
  let d ← d.insert n
  let d := { d with
    functions := Assoc.put (scope, ← f.name.name) (← f.id scope none) d.functions }
  d.refer (.text (moduleId scope)) .defines n.id

/-- Puts in a variable. -/
def declareVariable (o : OutlineRecord) (scope : Text) (d : DraftRecord) (v : VariableRecord) :
    Except RecordFault DraftRecord := do
  let n ← v.node o scope
  let d ← d.insert n
  d.refer (.text (moduleId scope)) .defines n.id

/-- Puts in a module with all that it declares. -/
def declare (d : DraftRecord) (o : OutlineRecord) : Except RecordFault DraftRecord := do
  let scope ← o.moduleName.name
  let d ← d.insert (o.node scope)
  let d ← o.classes.foldlM (declareClass o scope) d
  let d ← o.functions.foldlM (declareFunction o scope) d
  o.globals.foldlM (declareVariable o scope) d

/-! ## Second pass: references -/

/-- Refers to an imported module. -/
def linkImport (scope : Text) (d : DraftRecord) (name : Text) :
    Except RecordFault DraftRecord := do
  let n := (externalNode .module_ name).record
  (← d.insert n).refer (.text (moduleId scope)) .imports n.id

/-- The names that imports bind, by the metadata of a module's node. -/
def notedAliases (metadata : Metadata) : Metadata :=
  match metadata.get? "importAliases" with
  | some (.obj fs) => Metadata.ofFields fs
  | _ => []

/-- The names that the imports of a module bind, with further ones; names bound before keep what
they stand for. The metadata are those of the module's node. -/
def aliasesWith (d : DraftRecord) (scope : Text) (aliases metadata : Metadata) : Metadata :=
  ((Assoc.get? (moduleId scope) d.bound).getD (notedAliases metadata)).putAllNew aliases

/-- Notes the names that imports bind on the module's node. -/
def noteAliases (scope : Text) (aliases : Metadata) (d : DraftRecord) : DraftRecord :=
  let metadata := ((d.node? (.text (moduleId scope))).map (·.metadata)).getD []
  let table := d.aliasesWith scope aliases metadata
  { d with
    nodes := d.nodes.map fun n =>
      if n.id.identical (.text (moduleId scope)) then
        n.noting (d.aliasesWith scope aliases n.metadata)
      else n
    bound := if table.hasStrings then d.bound else Assoc.put (moduleId scope) table d.bound }

/-- What a call of a value names. -/
def calledTarget (d : DraftRecord) (scope : Text) (name : Json) (within : Option Text)
    (aliases : List (Text × Text)) : Except RecordFault Target :=
  match name.text? with
  | some t => .ok (d.callTarget scope t within aliases)
  | none => .error (if name.holds "." then .notAText else .wrongType)

/-- Refers to what a call names. -/
def linkCall (scope : Text) (aliases : List (Text × Text)) (source : Text)
    (within : Option Text) (d : DraftRecord) (name : Json) :
    Except RecordFault DraftRecord := do
  let t ← d.calledTarget scope name within aliases
  (d.bind t).refer (.text source) t.callRelation (.text t.id)

/-- Refers to what a function calls. -/
def linkFunction (scope : Text) (aliases : List (Text × Text)) (d : DraftRecord)
    (f : FunctionRecord) : Except RecordFault DraftRecord := do
  f.calls.foldlM (linkCall scope aliases (← f.id scope none) none) d

/-- Refers to what a method calls. -/
def linkMethod (scope : Text) (aliases : List (Text × Text)) (c : ClassRecord) (d : DraftRecord)
    (f : FunctionRecord) : Except RecordFault DraftRecord := do
  let className ← c.name.name
  let source := nodeIdAt scope .function (qualifiedName className f.name.written) f.line.written
  f.calls.foldlM (linkCall scope aliases source (some className)) d

/-- Refers to what the methods of a class call. -/
def linkMethods (scope : Text) (aliases : List (Text × Text)) (d : DraftRecord)
    (c : ClassRecord) : Except RecordFault DraftRecord :=
  c.methods.foldlM (linkMethod scope aliases c) d

/-- Refers to what a base class is; keyword arguments among the bases are none. -/
def linkBase (scope : Text) (c : ClassRecord) (d : DraftRecord) (base : Json) :
    Except RecordFault DraftRecord := do
  match base.text? with
  | some t =>
    if t.contains '=' then return d
    else
      let target := d.baseTarget scope t
      (d.bind target).refer (.text target.id) .inherits (.text (← c.id scope))
  | none => if base.holds "=" then return d else .error .wrongType

/-- Refers to the base classes of a class. -/
def linkBases (scope : Text) (d : DraftRecord) (c : ClassRecord) :
    Except RecordFault DraftRecord :=
  match c.bases.items? with
  | some bases => bases.foldlM (linkBase scope c) d
  | none => .error .wrongType

/-- Refers to all that a module's declarations refer to. -/
def link (d : DraftRecord) (o : OutlineRecord) : Except RecordFault DraftRecord := do
  let scope ← o.moduleName.name
  let imported ← o.imported
  let aliases := imported.aliases
  let d ← imported.modules.foldlM (linkImport scope) d
  let d := noteAliases scope imported.table d
  let d ← o.functions.foldlM (linkFunction scope aliases) d
  let d ← o.classes.foldlM (linkMethods scope aliases) d
  o.classes.foldlM (linkBases scope) d

/-- The draft of some outlines. -/
def build (os : List OutlineRecord) : Except RecordFault DraftRecord := do
  os.foldlM link (← os.foldlM declare {})

/-- The methods as lists of module, class, name and identifier, in ascending order. -/
def methodList (d : DraftRecord) : Except RecordFault (List Json) :=
  sortByKey id (d.methodRecords.map fun (scope, className, name, id) =>
    .arr [.text scope, .text className, name, .text id])

/-! ## References given by themselves -/

/-- What a call names, where the module, the class and the table of names are any values. A
table is looked up only for what was not declared. -/
def resolveCall (d : DraftRecord) (scope name within aliases : Json) :
    Except RecordFault Target := do
  let some t := name.text? | .error (if name.holds "." then .notAText else .wrongType)
  let first := Text.firstSegment t
  let dotted := '.' ∈ t
  let names := if scope.text?.isSome then d.toNames else {}
  let target := names.callTarget ((scope.text?).getD []) t within.text? []
  if dotted && selfNames.contains first then
    if within.truthy && ! (scope.isKey && within.isKey) then .error .wrongType
    else return target
  else if ! scope.isKey then .error .wrongType
  else
    match target with
    | .declared _ => return target
    | .external kind _ =>
      if ! dotted && within.truthy && ! within.isKey then .error .wrongType
      else
        match aliases with
        | .obj fs =>
          match Assoc.get? first.points fs with
          | some v => return .external kind (← v.name)
          | none => return target
        | _ => .error .notAnObject

/-- What a base class is, where its name and the module are any values. -/
def resolveBase (d : DraftRecord) (scope base : Json) : Except RecordFault Target :=
  if ! (scope.isKey && base.isKey) then .error .wrongType
  else do
    let t ← base.name
    match scope.text? with
    | some s => return d.baseTarget s t
    | none => return d.baseAnywhere t

end DraftRecord

end SymbolGraph
