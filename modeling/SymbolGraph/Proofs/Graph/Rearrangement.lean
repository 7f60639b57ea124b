import SymbolGraph.Proofs.Draft.Lookup
import SymbolGraph.Proofs.Draft.Table
import SymbolGraph.Proofs.Outline.Unambiguous
import SymbolGraph.Proofs.Record.Order
set_option autoImplicit false

/-!
# The order of declarations

Unambiguous outlines have one graph, in whichever order they are given and in whichever order
each lists its classes, methods, functions and variables. The tables have one entry for each
name, so their order does not show in what is found. The references are the same up to their
order, which their counts do not show. And all that is put in under one identifier is the same
node, so merging it does not show which was first.
-/

namespace SymbolGraph

open Draft

/-! ## Rearrangements -/

/-- The items are in another order, and each is replaced by one that it is related to. -/
def Reordered {α : Type} (r : α → α → Prop) (as bs : List α) : Prop :=
  ∃ cs, as.Perm cs ∧ List.Forall₂ r cs bs

/-- A class with its methods in another order. -/
inductive ClassDecl.Rearranged : ClassDecl → ClassDecl → Prop
  | intro (c : ClassDecl) {methods : List FunctionDecl} (hmethods : c.methods.Perm methods) :
    Rearranged c { c with methods }

/-- An outline with its classes, the methods of each, its functions and its variables in another
order. -/
inductive Outline.Rearranged : Outline → Outline → Prop
  | intro (o : Outline) {classes : List ClassDecl} {functions : List FunctionDecl}
    {globals : List VariableDecl} (hclasses : Reordered ClassDecl.Rearranged o.classes classes)
    (hfunctions : o.functions.Perm functions) (hglobals : o.globals.Perm globals) :
    Rearranged o { o with classes, functions, globals }

/-- What related items give is the same up to its order, and so is what all give. -/
theorem Reordered.flatMap_perm {α β : Type} {r : α → α → Prop} {as bs : List α}
    (hreordered : Reordered r as bs) {f : α → List β} (hf : ∀ a b, r a b → (f a).Perm (f b)) :
    (as.flatMap f).Perm (bs.flatMap f) := by
  obtain ⟨cs, hperm, hrelated⟩ := hreordered
  refine (hperm.flatMap_right f).trans ?_
  clear hperm
  induction hrelated with
  | nil => exact List.Perm.refl _
  | cons hhead _ ih =>
      rw [List.flatMap_cons, List.flatMap_cons]
      exact (hf _ _ hhead).append ih

theorem Reordered.map_perm {α β : Type} {r : α → α → Prop} {as bs : List α}
    (hreordered : Reordered r as bs) {f : α → β} (hf : ∀ a b, r a b → f a = f b) :
    (as.map f).Perm (bs.map f) := by
  rw [List.map_eq_flatMap, List.map_eq_flatMap]
  exact hreordered.flatMap_perm fun a b hab =>
    List.Perm.of_eq (congrArg (fun c => [c]) (hf a b hab))

/-- Items that are all the same do not show their order. -/
theorem eq_of_perm_of_all_eq {α : Type} {as bs : List α} (hperm : as.Perm bs)
    (hsame : ∀ a ∈ as, ∀ b ∈ as, a = b) : as = bs := by
  have hanti : ∀ a b, a ∈ as → b ∈ bs → True → True → a = b :=
    fun a b ha hb _ _ => hsame a ha b (hperm.mem_iff.mpr hb)
  refine hperm.eq_of_pairwise hanti ?_ ?_
  · exact List.pairwise_of_forall fun _ _ => trivial
  · exact List.pairwise_of_forall fun _ _ => trivial

namespace Outline.Rearranged

variable {o o' : Outline} (hrearranged : o.Rearranged o')
include hrearranged

/-! ## What one outline gives -/

theorem functionEntries_perm : o.functionEntries.Perm o'.functionEntries := by
  cases hrearranged with
  | intro _ hfunctions _ => exact hfunctions.map _

theorem classEntries_perm : o.classEntries.Perm o'.classEntries := by
  cases hrearranged with
  | intro hclasses _ _ =>
      refine hclasses.map_perm fun c c' hc => ?_
      cases hc
      rfl

theorem methodEntries_perm : o.methodEntries.Perm o'.methodEntries := by
  cases hrearranged with
  | intro hclasses _ _ =>
      refine hclasses.flatMap_perm fun c c' hc => ?_
      cases hc with
      | intro hmethods => exact hmethods.map _

theorem declaredNodes_perm : o.declaredNodes.Perm o'.declaredNodes := by
  cases hrearranged with
  | intro hclasses hfunctions hglobals =>
      refine List.Perm.cons _ (List.Perm.append (List.Perm.append ?_ (hfunctions.map _))
        (hglobals.map _))
      refine hclasses.flatMap_perm fun c c' hc => ?_
      cases hc with
      | intro hmethods => exact (hmethods.map _).cons _

theorem definitions_perm : o.definitions.Perm o'.definitions := by
  cases hrearranged with
  | intro hclasses hfunctions hglobals =>
      refine List.Perm.append (List.Perm.append ?_ (hfunctions.map _)) (hglobals.map _)
      refine hclasses.flatMap_perm fun c c' hc => ?_
      cases hc with
      | intro hmethods => exact (hmethods.map _).cons _

theorem importLinks_perm : o.importLinks.Perm o'.importLinks := by
  cases hrearranged
  exact List.Perm.refl _

theorem callLinks_perm (names : Names) : (o.callLinks names).Perm (o'.callLinks names) := by
  cases hrearranged with
  | intro hclasses hfunctions _ =>
      refine List.Perm.append (hfunctions.flatMap_right _) ?_
      refine hclasses.flatMap_perm fun c c' hc => ?_
      cases hc with
      | intro hmethods => exact hmethods.flatMap_right _

theorem baseLinks_perm (names : Names) : (o.baseLinks names).Perm (o'.baseLinks names) := by
  cases hrearranged with
  | intro hclasses _ _ =>
      refine hclasses.flatMap_perm fun c c' hc => ?_
      cases hc
      exact List.Perm.refl _

theorem placeholders_perm (names : Names) :
    (o.placeholders names).Perm (o'.placeholders names) := by
  cases hrearranged with
  | intro hclasses hfunctions _ =>
      refine List.Perm.append (List.Perm.refl _) (List.Perm.filterMap _ ?_)
      refine List.Perm.append (List.Perm.append (hfunctions.flatMap_right _) ?_) ?_
      · refine hclasses.flatMap_perm fun c c' hc => ?_
        cases hc with
        | intro hmethods => exact hmethods.flatMap_right _
      · refine hclasses.flatMap_perm fun c c' hc => ?_
        cases hc
        exact List.Perm.refl _

end Outline.Rearranged

/-! ## What all outlines give -/

section

variable {os os' : List Outline} (hos : Unambiguous os)
  (hreordered : Reordered Outline.Rearranged os os')
include hos hreordered

theorem classes_perm : (declaredNames os).classes.Perm (declaredNames os').classes := by
  rw [declaredNames_eq, declaredNames_eq]
  refine Assoc.putAll_perm (hreordered.flatMap_perm fun _ _ ho => ho.classEntries_perm) ?_
  exact nodup_keys_flatMap hos.modules (fun o => Outline.scope_classEntries)
    fun o ho => (hos.distinct o ho).nodup_classKeys

/-- The tables give every name the same meaning. -/
theorem agreeOn_reordered (scope : Text) :
    Names.AgreeOn scope (declaredNames os) (declaredNames os') := by
  rw [declaredNames_eq, declaredNames_eq]
  constructor
  · intro name
    refine Assoc.get?_putAll_perm
      (hreordered.flatMap_perm fun _ _ ho => ho.functionEntries_perm) ?_ _
    exact nodup_keys_flatMap hos.modules (fun o => Outline.scope_functionEntries)
      fun o ho => (hos.distinct o ho).nodup_functionKeys
  · intro name
    refine Assoc.get?_putAll_perm
      (hreordered.flatMap_perm fun _ _ ho => ho.classEntries_perm) ?_ _
    exact nodup_keys_flatMap hos.modules (fun o => Outline.scope_classEntries)
      fun o ho => (hos.distinct o ho).nodup_classKeys
  · intro className name
    refine Assoc.get?_putAll_perm
      (hreordered.flatMap_perm fun _ _ ho => ho.methodEntries_perm) ?_ _
    exact nodup_keys_flatMap hos.modules (fun o => Outline.scope_methodEntries)
      fun o ho => (hos.distinct o ho).nodup_methodKeys

/-- The references are the same up to their order. -/
theorem references_reordered : (references os).Perm (references os') := by
  have hclasses := classes_perm hos hreordered
  have hcalls : os'.flatMap (Outline.callLinks (declaredNames os')) =
      os'.flatMap (Outline.callLinks (declaredNames os)) :=
    List.flatMap_congr fun o _ => (agreeOn_reordered hos hreordered _).callLinks_eq.symm
  have hbases : os'.flatMap (Outline.baseLinks (declaredNames os')) =
      os'.flatMap (Outline.baseLinks (declaredNames os)) :=
    List.flatMap_congr fun o _ =>
      ((agreeOn_reordered hos hreordered _).baseLinks_eq hclasses).symm
  rw [references, references, hcalls, hbases]
  refine List.Perm.append (List.Perm.append (List.Perm.append ?_ ?_) ?_) ?_
  · exact hreordered.flatMap_perm fun _ _ ho => ho.definitions_perm
  · exact hreordered.flatMap_perm fun _ _ ho => ho.importLinks_perm
  · exact hreordered.flatMap_perm fun _ _ ho => ho.callLinks_perm _
  · exact hreordered.flatMap_perm fun _ _ ho => ho.baseLinks_perm _

/-! ## Nodes -/

omit hos in
theorem declaredIds_iff (id : Text) : id ∈ (os.flatMap Outline.declaredNodes).map Node.id ↔
    id ∈ (os'.flatMap Outline.declaredNodes).map Node.id :=
  ((hreordered.flatMap_perm fun _ _ ho => ho.declaredNodes_perm).map Node.id).mem_iff

theorem placeholders_reordered :
    (os.flatMap (Outline.placeholders (declaredNames os))).Perm
      (os'.flatMap (Outline.placeholders (declaredNames os'))) := by
  have hclasses := classes_perm hos hreordered
  have hsame : os'.flatMap (Outline.placeholders (declaredNames os')) =
      os'.flatMap (Outline.placeholders (declaredNames os)) :=
    List.flatMap_congr fun o _ =>
      ((agreeOn_reordered hos hreordered _).placeholders_eq hclasses).symm
  rw [hsame]
  exact hreordered.flatMap_perm fun _ _ ho => ho.placeholders_perm _

/-- The modules with an identifier bind the same names. -/
theorem aliases_reordered (id : Text) :
    (os.filter fun o => moduleId o.moduleName = id).map Outline.aliases =
      (os'.filter fun o => moduleId o.moduleName = id).map Outline.aliases := by
  have hpairs : ∀ os : List Outline,
      (os.filter fun o => moduleId o.moduleName = id).map Outline.aliases =
        ((os.map fun o => (o.moduleName, o.aliases)).filter fun p => moduleId p.1 = id).map
          Prod.snd := by
    intro os
    rw [List.filter_map, List.map_map]
    rfl
  have hperm : (os.map fun o => (o.moduleName, o.aliases)).Perm
      (os'.map fun o => (o.moduleName, o.aliases)) := by
    refine hreordered.map_perm fun o o' ho => ?_
    cases ho
    rfl
  rw [hpairs os, hpairs os']
  refine eq_of_perm_of_all_eq ((hperm.filter _).map Prod.snd) ?_
  rw [← hpairs os]
  intro a ha b hb
  obtain ⟨o, ho, rfl⟩ := List.mem_map.mp ha
  obtain ⟨o', ho', rfl⟩ := List.mem_map.mp hb
  rw [List.mem_filter, decide_eq_true_eq] at ho ho'
  have hplain := fun o ho => (hos.named o ho).moduleName
  have hmodule :=
    (nodeId_inj (hplain o ho.1).barFree (hplain o ho.1) (hplain o' ho'.1).barFree
      (hplain o' ho'.1)
    (ho.2.trans ho'.2.symm)).1
  rw [List.inj_on_of_nodup_map hos.modules ho.1 ho'.1 hmodule]

/-- Every identifier has the same node. -/
theorem node?_reordered (id : Text) : (build os).node? id = (build os').node? id := by
  by_cases hdeclared : id ∈ (os.flatMap Outline.declaredNodes).map Node.id
  · have hid : ∀ kind name, id ≠ externalId kind name := by
      obtain ⟨n, hn, rfl⟩ := List.mem_map.mp hdeclared
      obtain ⟨o, ho, hno⟩ := List.mem_flatMap.mp hn
      obtain ⟨e, he, hbare⟩ := (hos.named o ho).exists_entity hno
      exact congrArg Node.id hbare ▸ (hos.named o ho).id_ne_externalId he
    have hnodes :=
      (hreordered.flatMap_perm fun _ _ ho => ho.declaredNodes_perm).filter (·.id = id)
    rw [node?_build_declared hid, node?_build_declared hid, aliases_reordered hos hreordered,
      eq_of_perm_of_all_eq hnodes]
    intro n hn n' hn'
    rw [List.mem_filter, decide_eq_true_eq] at hn hn'
    exact hos.eq_of_nodeId_eq hn.1 hn'.1 (hn.2.trans hn'.2.symm)
  · have houtside := (declaredIds_iff hreordered id).not.mp hdeclared
    rw [node?_build_outside hdeclared, node?_build_outside houtside]
    refine congrArg mergeAll
      (eq_of_perm_of_all_eq ((placeholders_reordered hos hreordered).filter _) ?_)
    intro n hn n' hn'
    rw [List.mem_filter, decide_eq_true_eq] at hn hn'
    exact hos.eq_of_externalId_eq hn.1 hn'.1 (hn.2.trans hn'.2.symm)

/-- Rearranged outlines have the same graph. -/
theorem build_reordered : Graph.build os = Graph.build os' := by
  have hnodes : (Graph.build os).nodes = (Graph.build os').nodes := by
    refine eq_of_ascending Node.id (nodes_ascending os) (nodes_ascending os') fun n => ?_
    rw [mem_nodes_iff, mem_nodes_iff, node?_reordered hos hreordered]
  have hedges : (Graph.build os).edges = (Graph.build os').edges := by
    refine eq_of_ascending Edge.id (edges_ascending os) (edges_ascending os') fun e => ?_
    rw [mem_edges_iff, mem_edges_iff, (references_reordered hos hreordered).count_eq]
  calc Graph.build os = ⟨(Graph.build os).nodes, (Graph.build os).edges⟩ := rfl
    _ = Graph.build os' := by rw [hnodes, hedges]

end

/-! ## Written graphs -/

/-- Unambiguous outlines are written as the same text, with whatever indentation, in whichever
order they are given and in whichever order each lists its classes with their methods, its
functions and its variables. -/
theorem rearrangement_same_text (os os' : List Outline) (hos : Unambiguous os)
    (hreordered : Reordered Outline.Rearranged os os') (indent : Option Text) :
    ∃ text, (Graph.build os).record.write indent = .ok text ∧
      (Graph.build os').record.write indent = .ok text := by
  refine ⟨_, GraphRecord.write_of_inOrder (inOrder_build os) indent, ?_⟩
  rw [build_reordered hos hreordered]
  exact GraphRecord.write_of_inOrder (inOrder_build os') indent

/-- A method, and one that calls it. -/
def calledAndCalling : List FunctionDecl :=
  [{ name := ['n'], firstLine := 2, lastLine := 2 },
    { name := ['m'], firstLine := 3, lastLine := 3
      calls := [{ name := "self.n".toList, line := 3, column := 5 }] }]

/-- A file with a class whose base class another file declares. -/
def subclassFile (methods : List FunctionDecl) : Outline :=
  { filePath := none, moduleName := ['a']
    imports := [⟨.fromModule, ['b'], [⟨['B'], none⟩], 1, []⟩]
    classes := [{ name := ['C'], bases := [['B']], firstLine := 1, lastLine := 3, methods }] }

/-- A file with the base class and a variable that is assigned on some lines. -/
def assignmentsFile (lines : List Int) : Outline :=
  { filePath := none, moduleName := ['b'], globals := lines.map fun line => ⟨['x'], line, none⟩
    classes := [{ name := ['B'], firstLine := 1, lastLine := 1 }] }

/-- The files, the methods of the class and the assignments may each be reversed. -/
theorem rearrangement_same_text_reversed :
    Unambiguous [subclassFile calledAndCalling, assignmentsFile [2, 3]] ∧
    Reordered Outline.Rearranged [subclassFile calledAndCalling, assignmentsFile [2, 3]]
      [assignmentsFile [3, 2], subclassFile calledAndCalling.reverse] ∧
    ∃ text,
      (Graph.build [subclassFile calledAndCalling, assignmentsFile [2, 3]]).record.write
        (Json.spaces 2) = .ok text ∧
      (Graph.build [assignmentsFile [3, 2], subclassFile calledAndCalling.reverse]).record.write
        (Json.spaces 2) = .ok text := by
  have hos : Unambiguous [subclassFile calledAndCalling, assignmentsFile [2, 3]] := by decide
  have hclass : (subclassFile calledAndCalling).Rearranged
      (subclassFile calledAndCalling.reverse) :=
    .intro _ ⟨_, .refl _, .cons (.intro _ (.swap _ _ _)) .nil⟩ (.refl _) (.refl _)
  have hglobals : (assignmentsFile [2, 3]).Rearranged (assignmentsFile [3, 2]) :=
    .intro _ ⟨_, .refl _, .cons (.intro _ (.refl _)) .nil⟩ (.refl _) (.swap _ _ _)
  have hreordered : Reordered Outline.Rearranged
      [subclassFile calledAndCalling, assignmentsFile [2, 3]]
      [assignmentsFile [3, 2], subclassFile calledAndCalling.reverse] :=
    ⟨_, .swap _ _ _, .cons hglobals (.cons hclass .nil)⟩
  exact ⟨hos, hreordered, rearrangement_same_text _ _ hos hreordered (Json.spaces 2)⟩

end SymbolGraph
