import Mathlib.Data.List.Nodup
import SymbolGraph.Proofs.Draft.Closure
import SymbolGraph.Proofs.Draft.Declared
import SymbolGraph.Proofs.Outline.Heading
set_option autoImplicit false

/-!
# What outlines declare

The entities of an outline are its module, its classes with their methods, its functions and its
variables, each with a label, a kind, a file and a line. Where names are of one segment and
lines count from 1 (`Outline.Named`), no label holds a colon or a bar, so the identifier of an
entity determines its module, its kind, its label and its line, and is no placeholder's. In a
regular outline no two entities of one kind share a line, so entities have distinct identifiers,
also across outlines of modules with distinct names (`WellSeparated.nodup_ids`).
-/

namespace SymbolGraph

/-- Something that a file declares. -/
structure Entity where
  scope : Text
  kind : NodeKind
  label : Text
  filePath : Option Text
  line : Int
  deriving DecidableEq, Repr

namespace Entity

/-- The identifier of an entity. -/
def id (e : Entity) : Text := nodeId e.scope e.kind e.label e.line

/-- The node that carries what is known of an entity, without metadata. -/
def node (e : Entity) : Node :=
  { id := e.id, label := e.label, kind := e.kind, filePath := e.filePath, line := some e.line }

end Entity

namespace Outline

/-- The module itself. -/
def moduleEntity (o : Outline) : Entity :=
  ⟨o.moduleName, .module_, o.moduleName, o.filePath, 1⟩

/-- A class of the module. -/
def classEntity (o : Outline) (c : ClassDecl) : Entity :=
  ⟨o.moduleName, .class_, c.name, o.filePath, c.firstLine⟩

/-- A method of a class. -/
def methodEntity (o : Outline) (c : ClassDecl) (f : FunctionDecl) : Entity :=
  ⟨o.moduleName, .function, qualifiedName c.name f.name, o.filePath, f.firstLine⟩

/-- A top-level function. -/
def functionEntity (o : Outline) (f : FunctionDecl) : Entity :=
  ⟨o.moduleName, .function, f.name, o.filePath, f.firstLine⟩

/-- A variable. -/
def variableEntity (o : Outline) (v : VariableDecl) : Entity :=
  ⟨o.moduleName, .variable_, v.name, o.filePath, v.line⟩

/-- All that an outline declares. -/
def entities (o : Outline) : List Entity :=
  o.moduleEntity
    :: (o.classes.flatMap (fun c => o.classEntity c :: c.methods.map (o.methodEntity c))
    ++ o.functions.map o.functionEntity ++ o.globals.map o.variableEntity)

/-- All that a module or a class declares, behind what declares it. -/
def parts (o : Outline) : List (Entity × Entity) :=
  o.classes.flatMap (fun c => (o.moduleEntity, o.classEntity c) ::
      c.methods.map fun f => (o.classEntity c, o.methodEntity c f))
    ++ o.functions.map (fun f => (o.moduleEntity, o.functionEntity f))
    ++ o.globals.map (fun v => (o.moduleEntity, o.variableEntity v))

/-- All that is declared is declared by something, but for the module. -/
theorem entities_eq_cons (o : Outline) :
    o.entities = o.moduleEntity :: o.parts.map Prod.snd := by
  simp [entities, parts, List.map_flatMap, Function.comp_def]

theorem kind_of_mem_parts {o : Outline} {e : Entity} (he : e ∈ o.parts.map Prod.snd) :
    e.kind ≠ .module_ := by
  simp only [parts, List.map_append, List.map_flatMap, List.map_cons, List.map_map,
    List.mem_append, List.mem_flatMap, List.mem_cons, List.mem_map] at he
  obtain (⟨c, -, rfl | ⟨f, -, rfl⟩⟩ | ⟨f, -, rfl⟩) | ⟨v, -, rfl⟩ :=
    he <;> exact NodeKind.noConfusion

theorem kindLines_entities (o : Outline) :
    o.entities.map (fun e => (e.kind, e.line)) =
      (.module_, 1) :: (o.headings.map (fun h => (h.kind, h.line))
        ++ o.globals.map fun v => (.variable_, v.line)) := by
  simp [entities, headings, ClassDecl.headings, List.map_flatMap, Function.comp_def,
    moduleEntity, classEntity, methodEntity, functionEntity, variableEntity,
    FunctionDecl.heading]

theorem kind_of_mem_headings {o : Outline} {h : Heading} (hh : h ∈ o.headings) :
    h.kind = .class_ ∨ h.kind = .function := by
  simp only [headings, ClassDecl.headings, List.mem_append, List.mem_flatMap, List.mem_cons,
    List.mem_map] at hh
  obtain ⟨c, -, rfl | ⟨f, -, rfl⟩⟩ | ⟨f, -, rfl⟩ := hh
  · exact Or.inl rfl
  · exact Or.inr rfl
  · exact Or.inr rfl

/-! ## Nodes and definitions are those of entities -/

/-- Everything declared has a name of one segment and a line that counts from 1, and the
module's name is plain. -/
structure Named (o : Outline) : Prop where
  moduleName : Plain o.moduleName
  headingName : ∀ h ∈ o.headings, IsSegment h.name
  headingLine : ∀ h ∈ o.headings, 1 ≤ h.line
  globalName : ∀ v ∈ o.globals, IsSegment v.name
  globalLine : ∀ v ∈ o.globals, 1 ≤ v.line

instance : DecidablePred Named := fun o =>
  decidable_of_iff (Plain o.moduleName ∧ (∀ h ∈ o.headings, IsSegment h.name) ∧
      (∀ h ∈ o.headings, 1 ≤ h.line) ∧ (∀ v ∈ o.globals, IsSegment v.name) ∧
      ∀ v ∈ o.globals, 1 ≤ v.line)
    ⟨fun ⟨h₁, h₂, h₃, h₄, h₅⟩ => ⟨h₁, h₂, h₃, h₄, h₅⟩,
      fun ⟨h₁, h₂, h₃, h₄, h₅⟩ => ⟨h₁, h₂, h₃, h₄, h₅⟩⟩

namespace Named

variable {o : Outline} (ho : o.Named)
include ho

theorem className {c : ClassDecl} (hc : c ∈ o.classes) : IsSegment c.name := by
  refine ho.headingName ⟨.class_, c.name, c.firstLine⟩ ?_
  exact List.mem_append_left _ (List.mem_flatMap.mpr ⟨c, hc, List.mem_cons_self⟩)

/-- The label of a method is qualified, for its class has a name. -/
theorem methodLabel {c : ClassDecl} (hc : c ∈ o.classes) (f : FunctionDecl) :
    f.label (some c.name) = qualifiedName c.name f.name :=
  label_of_named (ho.className hc).ne_nil f

theorem bare_declaredNodes : o.declaredNodes.map Node.bare = o.entities.map Entity.node := by
  have hmethods : ∀ c ∈ o.classes, ∀ f : FunctionDecl,
      (f.node o (some c.name)).bare = (o.methodEntity c f).node := by
    intro c hc f
    simp only [FunctionDecl.node, Node.bare, ho.methodLabel hc]
    rfl
  have hclasses : (o.classes.flatMap fun c =>
      (c.node o).bare :: c.methods.map fun f => (f.node o (some c.name)).bare) =
      o.classes.flatMap fun c =>
        (o.classEntity c).node :: c.methods.map fun f => (o.methodEntity c f).node := by
    refine List.flatMap_congr fun c hc => ?_
    rw [List.map_congr_left fun f _ => hmethods c hc f]
    rfl
  simp only [declaredNodes, entities, List.map_cons, List.map_append, List.map_flatMap,
    List.map_map, Function.comp_def, hclasses]
  rfl

theorem definitions_eq : o.definitions =
    o.parts.map fun (whole, part) => ⟨whole.id, .defines, part.id⟩ := by
  have hclasses :
      (o.classes.flatMap fun c => (⟨moduleId o.moduleName, .defines, (c.node o).id⟩ : Link)
      :: c.methods.map fun f => ⟨(c.node o).id, .defines, (f.node o (some c.name)).id⟩) =
      o.classes.flatMap fun c => ⟨o.moduleEntity.id, .defines, (o.classEntity c).id⟩ ::
        c.methods.map fun f => ⟨(o.classEntity c).id, .defines, (o.methodEntity c f).id⟩ := by
    refine List.flatMap_congr fun c hc => ?_
    simp only [FunctionDecl.node, ho.methodLabel hc]
    rfl
  simp only [definitions, parts, List.map_append, List.map_flatMap, List.map_cons, List.map_map,
    Function.comp_def, hclasses]
  rfl

theorem ids_declaredNodes : o.declaredNodes.map Node.id = o.entities.map Entity.id := by
  have hids := congrArg (List.map Node.id) ho.bare_declaredNodes
  rwa [List.map_map, List.map_map] at hids

/-- The labels are plain, and the lines count from 1. -/
theorem plain_entity {e : Entity} (he : e ∈ o.entities) :
    e.scope = o.moduleName ∧ Plain e.label ∧ 1 ≤ e.line := by
  have hheading : ∀ h ∈ o.headings, Plain h.name ∧ 1 ≤ h.line := fun h hh =>
    ⟨(ho.headingName h hh).plain, ho.headingLine h hh⟩
  simp only [headings, ClassDecl.headings, List.mem_append, List.mem_flatMap, List.mem_cons,
    List.mem_map] at hheading
  simp only [entities, List.mem_cons, List.mem_append, List.mem_flatMap, List.mem_map] at he
  obtain rfl | (⟨c, hc, rfl | ⟨f, hf, rfl⟩⟩ | ⟨f, hf, rfl⟩) | ⟨v, hv, rfl⟩ := he
  · exact ⟨rfl, ho.moduleName, Int.le_refl 1⟩
  · obtain ⟨hname, hline⟩ := hheading _ (Or.inl ⟨c, hc, Or.inl rfl⟩)
    exact ⟨rfl, hname, hline⟩
  · obtain ⟨hname, hline⟩ := hheading f.heading (Or.inl ⟨c, hc, Or.inr ⟨f, hf, rfl⟩⟩)
    exact ⟨rfl, plain_qualifiedName (ho.className hc).plain hname, hline⟩
  · obtain ⟨hname, hline⟩ := hheading f.heading (Or.inr ⟨f, hf, rfl⟩)
    exact ⟨rfl, hname, hline⟩
  · exact ⟨rfl, (ho.globalName v hv).plain, ho.globalLine v hv⟩

/-- Entities with one identifier, of two outlines or of one, agree in module, kind, label and
line. -/
theorem eq_of_id_eq {o' : Outline} (ho' : o'.Named) {e e' : Entity} (he : e ∈ o.entities)
    (he' : e' ∈ o'.entities) (heq : e.id = e'.id) :
    o.moduleName = o'.moduleName ∧ e.kind = e'.kind ∧ e.label = e'.label ∧
    e.line = e'.line := by
  obtain ⟨hscope, hlabel, -⟩ := ho.plain_entity he
  obtain ⟨hscope', hlabel', -⟩ := ho'.plain_entity he'
  rw [← hscope, ← hscope']
  exact nodeId_inj (hscope ▸ ho.moduleName.barFree) hlabel
    (hscope' ▸ ho'.moduleName.barFree) hlabel' heq

theorem exists_entity {n : Node} (hn : n ∈ o.declaredNodes) :
    ∃ e ∈ o.entities, e.node = n.bare := by
  refine List.mem_map.mp ?_
  rw [← ho.bare_declaredNodes]
  exact List.mem_map_of_mem hn

/-- Nodes with one identifier, of two outlines or of one, agree in module, kind, label and
line. -/
theorem eq_of_nodeId_eq {o' : Outline} (ho' : o'.Named) {n n' : Node} (hn : n ∈ o.declaredNodes)
    (hn' : n' ∈ o'.declaredNodes) (heq : n.id = n'.id) :
    o.moduleName = o'.moduleName ∧ n.kind = n'.kind ∧ n.label = n'.label ∧
    n.line = n'.line := by
  obtain ⟨e, he, hbare⟩ := ho.exists_entity hn
  obtain ⟨e', he', hbare'⟩ := ho'.exists_entity hn'
  have hid : e.id = e'.id :=
    (congrArg Node.id hbare).trans (heq.trans (congrArg Node.id hbare').symm)
  obtain ⟨hmodule, hkind, hlabel, hline⟩ := ho.eq_of_id_eq ho' he he' hid
  refine ⟨hmodule, ?_, ?_, ?_⟩
  · exact (congrArg Node.kind hbare).symm.trans (hkind.trans (congrArg Node.kind hbare'))
  · exact (congrArg Node.label hbare).symm.trans (hlabel.trans (congrArg Node.label hbare'))
  · have hlines : some e.line = some e'.line := congrArg some hline
    exact (congrArg Node.line hbare).symm.trans (hlines.trans (congrArg Node.line hbare'))

/-- No entity has the identifier of a placeholder. -/
theorem id_ne_externalId {e : Entity} (he : e ∈ o.entities) (kind : NodeKind) (name : Text) :
    e.id ≠ externalId kind name := by
  obtain ⟨-, -, hline⟩ := ho.plain_entity he
  exact nodeId_ne_externalId (by omega) _ _ _ _ _

end Named

/-! ## Entities of regular outlines are told apart by kind and line -/

namespace Regular

variable {o : Outline} (ho : o.Regular)
include ho

theorem named (hmodule : Plain o.moduleName) : o.Named where
  moduleName := hmodule
  headingName h hh := (ho.headingName h hh).isSegment
  headingLine := ho.headingLine
  globalName v hv := (ho.globalName v hv).isSegment
  globalLine := ho.globalLine

/-- No line carries two entities of one kind. -/
theorem nodup_kindLines : (o.entities.map fun e => (e.kind, e.line)).Nodup := by
  have hheadings : (o.headings.map fun h => (h.kind, h.line)).Nodup := by
    refine List.Nodup.of_map Prod.snd ?_
    rw [List.map_map]
    exact ho.headingLines
  have hglobals : (o.globals.map fun v => (NodeKind.variable_, v.line)).Nodup := by
    refine List.Nodup.of_map Prod.snd ?_
    rw [List.map_map]
    exact ho.globalLines
  rw [kindLines_entities, List.nodup_cons, List.nodup_append]
  refine ⟨?_, hheadings, hglobals, ?_⟩
  · intro hmodule
    obtain hheading | hglobal := List.mem_append.mp hmodule
    · obtain ⟨h, hh, heq⟩ := List.mem_map.mp hheading
      obtain hkind | hkind := kind_of_mem_headings hh <;> simp [hkind] at heq
    · obtain ⟨v, -, heq⟩ := List.mem_map.mp hglobal
      simp at heq
  · rintro _ hheading _ hglobal rfl
    obtain ⟨h, hh, rfl⟩ := List.mem_map.mp hheading
    obtain ⟨v, -, heq⟩ := List.mem_map.mp hglobal
    obtain hkind | hkind := kind_of_mem_headings hh <;> simp [hkind] at heq

/-- The entities of a regular outline have distinct identifiers. -/
theorem nodup_ids (hmodule : Plain o.moduleName) : (o.entities.map Entity.id).Nodup := by
  have hkindLines := List.pairwise_map.mp ho.nodup_kindLines
  rw [List.Nodup, List.pairwise_map]
  -- equal identifiers have equal parts, of which kind and line already tell entities apart
  refine hkindLines.imp_of_mem ?_
  intro e e' he he' hne heq
  obtain ⟨-, hkind, -, hline⟩ := (ho.named hmodule).eq_of_id_eq (ho.named hmodule) he he' heq
  exact hne (Prod.ext hkind hline)

end Regular

end Outline

/-- Outlines whose entities are told apart by their identifiers: all are regular, and their
modules have distinct names without a colon or a bar. -/
structure WellSeparated (os : List Outline) : Prop where
  regular : ∀ o ∈ os, o.Regular
  plain : ∀ o ∈ os, Plain o.moduleName
  distinct : (os.map Outline.moduleName).Nodup

namespace WellSeparated

variable {os : List Outline} (hos : WellSeparated os)
include hos

theorem named {o : Outline} (ho : o ∈ os) : o.Named := (hos.regular o ho).named (hos.plain o ho)

/-- Of several outlines too the entities have distinct identifiers. -/
theorem nodup_ids : ((os.flatMap Outline.entities).map Entity.id).Nodup := by
  rw [List.map_flatMap, List.nodup_flatMap]
  refine ⟨fun o ho => (hos.regular o ho).nodup_ids (hos.plain o ho), ?_⟩
  refine (List.pairwise_map.mp hos.distinct).imp_of_mem ?_
  intro o o' ho ho' hne id hid hid'
  obtain ⟨e, he, rfl⟩ := List.mem_map.mp hid
  obtain ⟨e', he', heq⟩ := List.mem_map.mp hid'
  exact hne ((hos.named ho).eq_of_id_eq (hos.named ho') he he' heq.symm).1

theorem bare_declaredNodes : (os.flatMap Outline.declaredNodes).map Node.bare =
    (os.flatMap Outline.entities).map Entity.node := by
  rw [List.map_flatMap, List.map_flatMap]
  exact List.flatMap_congr fun o ho => (hos.named ho).bare_declaredNodes

theorem ids_declaredNodes : (os.flatMap Outline.declaredNodes).map Node.id =
    (os.flatMap Outline.entities).map Entity.id := by
  rw [List.map_flatMap, List.map_flatMap]
  exact List.flatMap_congr fun o ho => (hos.named ho).ids_declaredNodes

theorem definitions_eq : os.flatMap Outline.definitions =
    (os.flatMap Outline.parts).map fun (whole, part) => ⟨whole.id, .defines, part.id⟩ := by
  rw [List.map_flatMap]
  exact List.flatMap_congr fun o ho => (hos.named ho).definitions_eq

theorem id_ne_externalId {e : Entity} (he : e ∈ os.flatMap Outline.entities) (kind : NodeKind)
    (name : Text) : e.id ≠ externalId kind name := by
  obtain ⟨o, ho, heo⟩ := List.mem_flatMap.mp he
  exact (hos.named ho).id_ne_externalId heo kind name

end WellSeparated

/-- The parts of outlines are the entities that are no modules. -/
theorem parts_eq_filter (os : List Outline) :
    (os.flatMap Outline.parts).map Prod.snd =
      (os.flatMap Outline.entities).filter fun e => e.kind ≠ .module_ := by
  rw [List.map_flatMap, List.filter_flatMap]
  refine List.flatMap_congr fun o _ => ?_
  have hparts : (o.parts.map Prod.snd).filter (fun e => e.kind ≠ .module_) =
      o.parts.map Prod.snd :=
    List.filter_eq_self.mpr fun e he => decide_eq_true (Outline.kind_of_mem_parts he)
  rw [Outline.entities_eq_cons,
    List.filter_cons_of_neg (by simp [Outline.moduleEntity]), hparts]

end SymbolGraph
