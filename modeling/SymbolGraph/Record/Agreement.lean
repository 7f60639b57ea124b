import SymbolGraph.Record.Build
set_option autoImplicit false

/-!
# Records of outlines follow outlines

Building from the records of outlines has no fault and gives the record of their draft
(`DraftRecord.build_record`): what is exchanged is treated as what was read from files, wherever
it has the types of what is read from files.
-/

namespace SymbolGraph

/-! ## Values that are there -/

/-- A text is not null. -/
@[simp] theorem Json.text_ne_null (t : Text) : Json.text t ≠ .null := nofun

/-- A list of texts is not null. -/
@[simp] theorem Json.ofTexts_ne_null (ts : List Text) : Json.ofTexts ts ≠ .null := nofun

/-- Members that are texts are there if the texts are. -/
@[simp] theorem present_ofText? (t : Option Text) :
    (if Json.ofText? t = .null then none else some (Json.ofText? t)) = t.map Json.text := by
  cases t <;> simp [Json.ofText?]

/-- Members that are truth values are there if they are known. -/
@[simp] theorem present_ofBool? (b : Option Bool) :
    (if Json.ofBool? b = .null then none else some (Json.ofBool? b)) = b.map Json.bool := by
  cases b <;> simp [Json.ofBool?]

/-- What follows a value goes on with it. -/
@[simp] theorem ok_bind {ε α β : Type} (a : α) (f : α → Except ε β) :
    (Except.ok a >>= f) = f a := rfl

/-- A value alone has no fault. -/
@[simp] theorem pure_ok {ε α : Type} (a : α) :
    (pure a : Except ε α) = .ok a := rfl

/-! ## Nodes -/

/-- The node of a module's record is the record of its node. -/
theorem Outline.record_node (o : Outline) : o.record.node o.moduleName = o.node.record := by
  simp [OutlineRecord.node, Outline.record, Outline.node, Node.record, presentMetadata]

/-- A class's record has the identifier of the class. -/
theorem ClassDecl.record_id (c : ClassDecl) (o : Outline) :
    c.record.id o.moduleName = .ok (c.node o).id := by
  simp [ClassRecord.id, ClassDecl.record, ClassDecl.node, nodeId]

/-- The node of a class's record is the record of its node. -/
theorem ClassDecl.record_node (c : ClassDecl) (o : Outline) :
    c.record.node o.record o.moduleName = .ok (c.node o).record := by
  have h := c.record_id o
  simp only [ClassRecord.node, h]
  simp [ClassDecl.record, ClassDecl.node, Outline.record, Node.record, presentMetadata]

/-- A function's record has the label of the function. -/
theorem FunctionDecl.record_label (f : FunctionDecl) (className : Option Text) :
    f.record.label className = .ok (f.label className) := by
  rcases className with _ | (_ | _) <;>
    simp [FunctionRecord.label, FunctionDecl.label, FunctionDecl.record]

/-- A function's record has the identifier of the function. -/
theorem FunctionDecl.record_id (f : FunctionDecl) (o : Outline) (className : Option Text) :
    f.record.id o.moduleName className = .ok (f.node o className).id := by
  simp only [FunctionRecord.id, record_label]
  simp [FunctionDecl.record, FunctionDecl.node, nodeId]

/-- The node of a function's record is the record of its node. -/
theorem FunctionDecl.record_node (f : FunctionDecl) (o : Outline) (className : Option Text) :
    f.record.node o.record o.moduleName className = .ok (f.node o className).record := by
  simp only [FunctionRecord.node, record_label, record_id]
  simp [FunctionDecl.record, FunctionDecl.node, Outline.record, Node.record, presentMetadata]

/-- The node of a variable's record is the record of its node. -/
theorem VariableDecl.record_node (v : VariableDecl) (o : Outline) :
    v.record.node o.record o.moduleName = .ok (v.node o).record := by
  simp [VariableRecord.node, VariableDecl.record, VariableDecl.node, Outline.record,
    Node.record, presentMetadata, nodeId]

/-! ## Imports -/

/-- A binding of a text as exchanged. -/
def bindingRecord (b : Text × Text) : Json × Text := (.text b.1, b.2)

/-- Reading records gives the values that reading each gives. -/
theorem mapM_record {α β γ : Type} (view : α → β) (f : β → Except RecordFault γ) (g : α → γ)
    (step : ∀ a, f (view a) = .ok (g a)) (as : List α) :
    (as.map view).mapM f = .ok (as.map g) := by
  induction as with
  | nil => rfl
  | cons a as ih => simp only [List.map_cons, List.mapM_cons, step, ok_bind, ih, pure_ok]

/-- An import's record has the form of the import. -/
theorem ImportDecl.record_isPlain (i : ImportDecl) :
    i.record.isPlain = decide (i.style = .plain) := by
  have words :
      Json.ofString ImportStyle.fromModule.word ≠ Json.ofString ImportStyle.plain.word := by
    simp [ImportStyle.word, Json.ofString, Json.text, Text.points]
  cases style : i.style <;> simp [ImportRecord.isPlain, ImportDecl.record, style, words]

/-- A text that is not empty counts as true. -/
@[simp] theorem Json.truthy_text_cons (c : Char) (t : Text) :
    (Json.text (c :: t)).truthy = true := rfl

/-- The empty text counts as false. -/
@[simp] theorem Json.truthy_text_nil : (Json.text []).truthy = false := rfl

/-- Null counts as false. -/
@[simp] theorem Json.truthy_null : Json.null.truthy = false := rfl

/-- A text may be a key. -/
@[simp] theorem Json.key_text (t : Text) : (Json.text t).key = .ok (.text t) := rfl

/-- An import's record binds what the import binds and refers to the same modules. -/
theorem ImportDecl.record_bindings (i : ImportDecl) :
    i.record.bindings = .ok (i.bindings.map bindingRecord, i.modules) := by
  have plain := i.record_isPlain
  have path : i.record.path = .text i.path := rfl
  have names : i.record.names = i.names.map ImportedName.record := rfl
  cases style : i.style with
  | plain =>
    simp only [style, decide_true] at plain
    have step (n : ImportedName) : i.record.binding n.record =
        .ok (bindingRecord (n.boundFirst, n.name)) := by
      obtain ⟨name, _ | (_ | _)⟩ := n <;>
        simp [ImportRecord.binding, plain, ImportedName.record, ImportedName.boundFirst,
          Json.ofText?, bindingRecord]
    simp only [ImportRecord.bindings, plain, names, mapM_record _ _ _ step, ok_bind, if_true,
      ImportDecl.bindings, ImportDecl.modules, style, List.map_map]
    rfl
  | fromModule =>
    simp only [style, reduceCtorEq, decide_false] at plain
    have step (n : ImportedName) : i.record.binding n.record =
        .ok (bindingRecord (n.bound, qualifiedName i.path n.name)) := by
      obtain ⟨name, _ | (_ | _)⟩ := n <;>
        simp [ImportRecord.binding, plain, path, ImportedName.record, ImportedName.bound,
          Json.ofText?, bindingRecord]
    simp only [ImportRecord.bindings, plain, names, mapM_record _ _ _ step, ok_bind, path,
      Json.name_text, ImportDecl.bindings, ImportDecl.modules, style, List.map_map]
    rfl

/-- A text is bound as it is put into a table of texts. -/
theorem bindName_map (k t : Text) (bs : List (Text × Text)) :
    bindName (.text k) t (bs.map bindingRecord) = (Assoc.put k t bs).map bindingRecord := by
  induction bs with
  | nil => rfl
  | cons b bs ih =>
    obtain ⟨l, u⟩ := b
    by_cases h : l = k
    · simp [bindName, bindingRecord, Assoc.put, Json.identical_text, h]
    · simpa [bindName, bindingRecord, Assoc.put, Json.identical_text, h] using ih

/-- Texts are bound as they are put into a table of texts. -/
theorem bindNames_map (new bs : List (Text × Text)) :
    (new.map bindingRecord).foldl (fun bs (k, t) => bindName k t bs) (bs.map bindingRecord) =
      (Assoc.putAll bs new).map bindingRecord := by
  induction new generalizing bs with
  | nil => rfl
  | cons b new ih =>
    obtain ⟨k, t⟩ := b
    have first : bindName (bindingRecord (k, t)).1 (bindingRecord (k, t)).2
        (bs.map bindingRecord) =
        (Assoc.put k t bs).map bindingRecord := bindName_map ..
    simp only [List.map_cons, List.foldl_cons, first]
    exact ih _

/-- The imports of an outline's record bring in what those of the outline do. -/
theorem Outline.record_imported (o : Outline) :
    o.record.imported = .ok ⟨o.aliases.map bindingRecord, o.importedModules⟩ := by
  have imports : o.record.imports = o.imports.map ImportDecl.record := rfl
  have bound := bindNames_map (o.imports.flatMap ImportDecl.bindings) []
  simp only [OutlineRecord.imported, imports,
    mapM_record _ _ _ ImportDecl.record_bindings, ok_bind, pure_ok, List.flatMap_map]
  rw [← List.map_flatMap]
  simp only [Outline.aliases, Outline.importedModules, ← bound]
  rfl

/-- All bindings of texts are among the bindings of texts. -/
theorem Imported.aliases_record (bs : List (Text × Text)) (ms : List Text) :
    Imported.aliases ⟨bs.map bindingRecord, ms⟩ = bs := by
  simp [Imported.aliases, bindingRecord, Function.comp_def]

/-- Bindings of texts as a table. -/
theorem Imported.table_record (bs : List (Text × Text)) (ms : List Text) :
    Imported.table ⟨bs.map bindingRecord, ms⟩ =
      Metadata.ofFields (bs.map fun (k, v) => (k.points, .text v)) := by
  simp only [Imported.table, Metadata.ofFields, List.map_map]
  rfl

/-! ## Steps -/

/-- Steps that follow steps on drafts give the record of what those give. -/
theorem foldlM_record {α β : Type} (view : α → β)
    (f : DraftRecord → β → Except RecordFault DraftRecord) (g : Draft → α → Draft)
    (step : ∀ d a, f d.record (view a) = .ok (g d a).record) (as : List α) (d : Draft) :
    (as.map view).foldlM f d.record = .ok (as.foldl g d).record := by
  induction as generalizing d with
  | nil => rfl
  | cons a as ih =>
      simp only [List.map_cons, List.foldlM_cons, step, ok_bind, ih, List.foldl_cons]

namespace Draft

/-- The row of a method is put in as the method is put into its table. -/
theorem putRow_map (scope className name id : Text) (ms : List ((Text × Text × Text) × Text)) :
    putRow scope className (.text name) id (ms.map methodRecord) =
      (Assoc.put (scope, className, name) id ms).map methodRecord := by
  induction ms with
  | nil => rfl
  | cons m ms ih =>
    obtain ⟨⟨s, c, n⟩, i⟩ := m
    have same : (s = scope ∧ c = className ∧ (Json.text n).identical (.text name) = true) =
        ((s, c, n) = (scope, className, name)) := by
      simp [Json.identical_text]
    simp only [List.map_cons, methodRecord, putRow, Assoc.put, same]
    split
    · rfl
    · exact congrArg _ ih

/-- A method with a text for its name is noted in the table of methods. -/
theorem record_nameMethod (d : Draft) (scope className : Text) (f : FunctionDecl) (id : Text) :
    d.record.nameMethod scope className f.record.name id =
      .ok (Draft.record
        { d with methods := Assoc.put (scope, className, f.name) id d.methods }) := by
  have key : f.record.name.text? = some f.name := Json.text?_text f.name
  have may : f.record.name.isKey = true := rfl
  have rows : putRow scope className f.record.name id d.record.methodRecords =
      (Assoc.put (scope, className, f.name) id d.methods).map methodRecord := putRow_map ..
  simp only [DraftRecord.nameMethod, may, if_true, key, rows]
  rfl

/-- A method is put in as its record is. -/
theorem record_declareMethod (o : Outline) (c : ClassDecl) (d : Draft) (f : FunctionDecl) :
    DraftRecord.declareMethod o.record o.moduleName c.record d.record f.record =
      .ok (declareMethod o c d f).record := by
  have name : c.record.name.name = .ok c.name := Json.name_text c.name
  simp only [DraftRecord.declareMethod, name, ok_bind, f.record_node, f.record_id,
    record_insert, c.record_id, record_nameMethod]
  exact record_refer ..

/-- A class is put in as its record is. -/
theorem record_declareClass (o : Outline) (d : Draft) (c : ClassDecl) :
    DraftRecord.declareClass o.record o.moduleName d.record c.record =
      .ok (declareClass o d c).record := by
  have name : c.record.name.name = .ok c.name := Json.name_text c.name
  have referred := record_refer { d.insert (c.node o) with
    classes := Assoc.put (o.moduleName, c.name) (c.node o).id d.classes }
    (moduleId o.moduleName) .defines (c.node o).id
  simp only [DraftRecord.declareClass, name, ok_bind, c.record_node, c.record_id, record_insert]
  exact (congrArg (· >>= _) referred).trans
    (foldlM_record FunctionDecl.record _ _ (record_declareMethod o c) c.methods _)

/-- A function is put in as its record is. -/
theorem record_declareFunction (o : Outline) (d : Draft) (f : FunctionDecl) :
    DraftRecord.declareFunction o.record o.moduleName d.record f.record =
      .ok (declareFunction o d f).record := by
  have name : f.record.name.name = .ok f.name := Json.name_text f.name
  simp only [DraftRecord.declareFunction, name, ok_bind, f.record_node, f.record_id,
    record_insert]
  exact record_refer { d.insert (f.node o none) with
    functions := Assoc.put (o.moduleName, f.name) (f.node o none).id d.functions } ..

/-- A variable is put in as its record is. -/
theorem record_declareVariable (o : Outline) (d : Draft) (v : VariableDecl) :
    DraftRecord.declareVariable o.record o.moduleName d.record v.record =
      .ok (declareVariable o d v).record := by
  simp only [DraftRecord.declareVariable, ok_bind, v.record_node, record_insert]
  exact record_refer ..

/-- A module is put in as its record is. -/
theorem record_declare (d : Draft) (o : Outline) :
    d.record.declare o.record = .ok (d.declare o).record := by
  have name : o.record.moduleName.name = .ok o.moduleName := Json.name_text o.moduleName
  have classes := foldlM_record ClassDecl.record _ _ (record_declareClass o) o.classes
  have functions := foldlM_record FunctionDecl.record _ _ (record_declareFunction o) o.functions
  have globals := foldlM_record VariableDecl.record _ _ (record_declareVariable o) o.globals
  simp only [DraftRecord.declare, name, ok_bind, o.record_node, record_insert]
  simp only [Outline.record] at classes functions globals ⊢
  simp only [classes, functions, globals, ok_bind]
  rfl

/-- The node that a target needs is put in. -/
theorem record_bind (d : Draft) (t : Target) : d.record.bind t = (d.bind t).record := by
  cases t with
  | declared id => rfl
  | external kind name =>
    exact congrArg (fun ns => { d.record with nodes := ns }) (insertRecord_map ..)

/-- An imported module is referred to. -/
theorem record_linkImport (o : Outline) (d : Draft) (name : Text) :
    DraftRecord.linkImport o.moduleName d.record name = .ok (linkImport o d name).record := by
  simp only [DraftRecord.linkImport, ok_bind, record_insert]
  exact record_refer ..

/-- What a call names is referred to. -/
theorem record_linkCall (o : Outline) (source : Text) (within : Option Text) (d : Draft)
    (c : CallSite) :
    DraftRecord.linkCall o.moduleName o.aliases source within d.record (.text c.name) =
      .ok (linkCall o source within d c).record := by
  simp only [DraftRecord.linkCall, DraftRecord.calledTarget, Json.text?_text, ok_bind,
    record_bind]
  exact record_refer ..

/-- What a function calls is referred to. -/
theorem record_linkFunction (o : Outline) (d : Draft) (f : FunctionDecl) :
    DraftRecord.linkFunction o.moduleName o.aliases d.record f.record =
      .ok (linkFunction o d f).record := by
  simp only [DraftRecord.linkFunction, f.record_id, ok_bind]
  exact foldlM_record _ _ _ (record_linkCall o _ none) f.calls d

/-- What a method calls is referred to. -/
theorem record_linkMethod (o : Outline) (c : ClassDecl) (d : Draft) (f : FunctionDecl) :
    DraftRecord.linkMethod o.moduleName o.aliases c.record d.record f.record =
      .ok (linkMethod o c d f).record := by
  have name : c.record.name.name = .ok c.name := Json.name_text c.name
  have source : nodeIdAt o.moduleName .function (qualifiedName c.name f.record.name.written)
      f.record.line.written =
        nodeId o.moduleName .function (qualifiedName c.name f.name) f.firstLine := by
    simp [FunctionDecl.record, nodeId]
  simp only [DraftRecord.linkMethod, name, ok_bind, source]
  exact foldlM_record _ _ _ (record_linkCall o _ _) f.calls d

/-- A base class is referred to, unless it is a keyword argument. -/
theorem record_linkBase (o : Outline) (c : ClassDecl) (d : Draft) (base : Text) :
    DraftRecord.linkBase o.moduleName c.record d.record (.text base) =
      .ok (if base.contains '=' then d else linkBase o c d base).record := by
  simp only [DraftRecord.linkBase, Json.text?_text, c.record_id, ok_bind, record_bind]
  split
  · rfl
  · exact record_refer ..

/-- The base classes of a class are referred to. -/
theorem record_linkBases (o : Outline) (d : Draft) (c : ClassDecl) :
    DraftRecord.linkBases o.moduleName d.record c.record =
      .ok ((baseNames c).foldl (linkBase o c) d).record := by
  have items : c.record.bases.items? = some (c.bases.map Json.text) := rfl
  simp only [DraftRecord.linkBases, items, foldlM_record _ _ _ (record_linkBase o c), baseNames,
    List.foldl_filter]
  congr 3
  funext d b
  cases b.contains '=' <;> rfl

/-- The names that imports bind are read off metadata as off their table. -/
theorem notedAliases_ofFields (metadata : Fields) :
    DraftRecord.notedAliases (Metadata.ofFields metadata) =
      Metadata.ofFields (notedAliases metadata) := by
  rw [DraftRecord.notedAliases, notedAliases, Metadata.get?_ofFields]
  cases Assoc.get? (Points.ofString "importAliases") metadata with
  | none => rfl
  | some v => cases v <;> rfl

/-- Further names are put with those noted in metadata as with those in their table. -/
theorem record_aliasesWith (d : Draft) (scope : Text) (aliases metadata : Fields) :
    d.record.aliasesWith scope (Metadata.ofFields aliases) (Metadata.ofFields metadata) =
      Metadata.ofFields (Assoc.putAllNew (notedAliases metadata) aliases) := by
  have none_bound : Assoc.get? (moduleId scope) d.record.bound = none := rfl
  rw [DraftRecord.aliasesWith, none_bound, Option.getD_none, notedAliases_ofFields,
    Metadata.ofFields_putAllNew]

/-- The metadata of the node with an identifier, or none. -/
theorem record_metadataOf (d : Draft) (id : Json) :
    ∃ fs, ((d.record.node? id).map (·.metadata)).getD [] = Metadata.ofFields fs := by
  cases found : d.record.node? id with
  | none => exact ⟨[], rfl⟩
  | some n =>
    obtain ⟨m, _, rfl⟩ := List.mem_map.1 (List.mem_of_find?_eq_some found)
    exact ⟨m.metadata, rfl⟩

/-- The names that imports bind are noted on a node. -/
theorem record_noting (d : Draft) (o : Outline) (n : Node) :
    n.record.noting (d.record.aliasesWith o.moduleName
      (Metadata.ofFields (o.aliases.map fun (k, v) => (k.points, .text v))) n.record.metadata) =
      Node.record { n with metadata := withAliases n.metadata o.aliases } := by
  have noted := record_aliasesWith d o.moduleName
    (o.aliases.map fun (k, v) => (k.points, .text v)) n.metadata
  refine congrArg (fun m => { n.record with metadata := m }) ?_
  exact (congrArg (fun m => Metadata.put _ (.obj m.fields) n.record.metadata) noted).trans
    ((congrArg (fun fs => Metadata.put _ (.obj fs) n.record.metadata)
      (Metadata.fields_ofFields _)).trans (Metadata.put_ofFields ..))

/-- The names that imports bind are noted. -/
theorem record_noteAliases (o : Outline) (d : Draft) :
    DraftRecord.noteAliases o.moduleName
      (Metadata.ofFields (o.aliases.map fun (k, v) => (k.points, .text v))) d.record =
      (noteAliases o d).record := by
  obtain ⟨fs, metadata⟩ := record_metadataOf d (.text (moduleId o.moduleName))
  have nodes : (d.record.nodes.map fun n =>
      if n.id.identical (.text (moduleId o.moduleName)) then
        n.noting (d.record.aliasesWith o.moduleName
          (Metadata.ofFields (o.aliases.map fun (k, v) => (k.points, .text v))) n.metadata)
      else n) = (noteAliases o d).record.nodes := by
    simp only [noteAliases, record, List.map_map]
    refine List.map_congr_left fun n _ => ?_
    have same_id : n.record.id.identical (.text (moduleId o.moduleName)) =
        decide (n.id = moduleId o.moduleName) := Json.identical_text ..
    simp only [Function.comp_apply, same_id, decide_eq_true_eq]
    split
    · exact record_noting d o n
    · rfl
  simp only [DraftRecord.noteAliases, metadata, record_aliasesWith,
    Metadata.hasStrings_ofFields, if_true, nodes]
  rfl

/-- What the methods of a class call is referred to. -/
theorem record_linkMethods (o : Outline) (d : Draft) (c : ClassDecl) :
    DraftRecord.linkMethods o.moduleName o.aliases d.record c.record =
      .ok (c.methods.foldl (linkMethod o c) d).record :=
  foldlM_record FunctionDecl.record _ _ (record_linkMethod o c) c.methods d

/-- What a module refers to is referred to. -/
theorem record_link (d : Draft) (o : Outline) :
    d.record.link o.record = .ok (d.link o).record := by
  have name : o.record.moduleName.name = .ok o.moduleName := Json.name_text o.moduleName
  have modules := foldlM_record id _ _ (record_linkImport o) o.importedModules d
  have functions := foldlM_record FunctionDecl.record _ _ (record_linkFunction o) o.functions
  have methods := foldlM_record ClassDecl.record _ _ (record_linkMethods o) o.classes
  have bases := foldlM_record ClassDecl.record _ _ (record_linkBases o) o.classes
  have functionRecords : o.record.functions = o.functions.map FunctionDecl.record := rfl
  have classRecords : o.record.classes = o.classes.map ClassDecl.record := rfl
  rw [List.map_id] at modules
  simp only [DraftRecord.link, name, ok_bind, o.record_imported, Imported.aliases_record,
    Imported.table_record, modules, record_noteAliases, functionRecords, functions,
    classRecords, methods, bases, link]

end Draft

/-- Building from the records of outlines gives the record of their draft. -/
theorem DraftRecord.build_record (os : List Outline) :
    DraftRecord.build (os.map Outline.record) = .ok (Draft.build os).record := by
  have declared := foldlM_record Outline.record _ _ Draft.record_declare os {}
  have linked := foldlM_record Outline.record _ _ Draft.record_link os
  exact (congrArg (· >>= _) declared).trans (linked _)

end SymbolGraph
