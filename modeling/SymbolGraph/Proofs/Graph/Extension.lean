import SymbolGraph.Proofs.Draft.Lookup
import SymbolGraph.Proofs.Draft.Table
import SymbolGraph.Proofs.Graph.Order
import SymbolGraph.Proofs.Outline.Entity
set_option autoImplicit false

/-!
# Graphs of more files

Files that are added to others leave in the graph what the others declare and all that they
refer to, except that a base class may now be found among the added files. Everything else is
looked up by the name of the module, and modules have distinct names: the entries that a call
sees, the nodes with an identifier and the references that start at what a module declares come
from that module alone.
-/

namespace SymbolGraph

open Draft

/-! ## The references of one outline -/

namespace Outline

/-- The references that start at what an outline declares: all but those to base classes. -/
def ownLinks (names : Names) (o : Outline) : List Link :=
  o.definitions ++ o.importLinks ++ o.callLinks names

theorem relation_of_mem_ownLinks {names : Names} {o : Outline} {l : Link}
    (hl : l ∈ o.ownLinks names) : l.relation ≠ .inherits := by
  intro hinherits
  simp only [ownLinks, List.mem_append] at hl
  obtain (hdefinition | himport) | hcall := hl
  · simp [relation_of_mem_definitions hdefinition] at hinherits
  · simp [relation_of_mem_importLinks himport] at hinherits
  · simpa [Link.isCall, hinherits] using isCall_of_mem_callLinks hcall

theorem classEntity_mem {o : Outline} {c : ClassDecl} (hc : c ∈ o.classes) :
    o.classEntity c ∈ o.entities := by
  simp only [entities, List.mem_cons, List.mem_append, List.mem_flatMap]
  exact Or.inr (Or.inl (Or.inl ⟨c, hc, Or.inl rfl⟩))

theorem whole_of_mem_parts {o : Outline} {p : Entity × Entity} (hp : p ∈ o.parts) :
    p.1 ∈ o.entities := by
  simp only [parts, List.mem_append, List.mem_flatMap, List.mem_cons, List.mem_map] at hp
  obtain (⟨c, hc, rfl | ⟨f, -, rfl⟩⟩ | ⟨f, -, rfl⟩) | ⟨v, -, rfl⟩ := hp
  · exact List.mem_cons_self
  · exact classEntity_mem hc
  · exact List.mem_cons_self
  · exact List.mem_cons_self

/-- The references of an outline but for base classes start at what it declares. -/
theorem Named.source_of_mem_ownLinks {names : Names} {o : Outline} (ho : o.Named) {l : Link}
    (hl : l ∈ o.ownLinks names) : ∃ e ∈ o.entities, e.id = l.source := by
  simp only [ownLinks, List.mem_append] at hl
  obtain (hdefinition | himport) | hcall := hl
  · rw [ho.definitions_eq] at hdefinition
    obtain ⟨p, hp, rfl⟩ := List.mem_map.mp hdefinition
    exact ⟨p.1, whole_of_mem_parts hp, rfl⟩
  · obtain ⟨name, -, rfl⟩ := List.mem_map.mp himport
    exact ⟨o.moduleEntity, List.mem_cons_self, rfl⟩
  · simp only [callLinks, List.mem_append, List.mem_flatMap, List.mem_map] at hcall
    simp only [entities, List.mem_cons, List.mem_append, List.mem_flatMap, List.mem_map]
    obtain ⟨f, hf, c, -, rfl⟩ | ⟨d, hd, f, hf, c, -, rfl⟩ := hcall
    · exact ⟨o.functionEntity f, Or.inr (Or.inl (Or.inr ⟨f, hf, rfl⟩)), rfl⟩
    · exact ⟨o.methodEntity d f, Or.inr (Or.inl (Or.inl ⟨d, hd, Or.inr ⟨f, hf, rfl⟩⟩)), rfl⟩

/-- A base class is referred to from a class of the outline. -/
theorem target_of_mem_baseLinks {names : Names} {o : Outline} {l : Link}
    (hl : l ∈ o.baseLinks names) : ∃ e ∈ o.entities, e.id = l.target := by
  simp only [baseLinks, List.mem_flatMap, List.mem_map] at hl
  obtain ⟨c, hc, base, -, rfl⟩ := hl
  exact ⟨o.classEntity c, classEntity_mem hc, rfl⟩

/-- Which classes refer to base classes, and how often, does not depend on what these are. -/
theorem targets_baseLinks (names names' : Names) (o : Outline) :
    (o.baseLinks names).map Link.target = (o.baseLinks names').map Link.target := by
  simp only [baseLinks, List.map_flatMap, List.map_map, Function.comp_def]

end Outline

/-- The references are those of each outline, and those to base classes. -/
theorem references_perm (os : List Outline) :
    (references os).Perm (os.flatMap (Outline.ownLinks (declaredNames os))
      ++ os.flatMap (Outline.baseLinks (declaredNames os))) := by
  refine List.Perm.append_right _ ?_
  exact ((List.flatMap_append_perm os _ _).append_right _).trans
    (List.flatMap_append_perm os _ _)

theorem count_references_of_ne {os : List Outline} {l : Link} (hl : l.relation ≠ .inherits) :
    (references os).count l = (os.flatMap (Outline.ownLinks (declaredNames os))).count l := by
  have hbases : (os.flatMap (Outline.baseLinks (declaredNames os))).count l = 0 := by
    refine List.count_eq_zero.mpr fun hmem => ?_
    obtain ⟨o, -, hlo⟩ := List.mem_flatMap.mp hmem
    exact hl (Outline.relation_of_mem_baseLinks hlo)
  rw [(references_perm os).count_eq, List.count_append, hbases, Nat.add_zero]

/-! ## What is declared where -/

/-- Some outline declares something with the identifier. -/
def declaredBy (os : List Outline) (id : Text) :
    Bool := os.any fun o => o.entities.any (·.id = id)

theorem declaredBy_iff {os : List Outline} {id : Text} :
    declaredBy os id = true ↔ ∃ o ∈ os, ∃ e ∈ o.entities, e.id = id := by
  simp [declaredBy]

section

variable {os more : List Outline} (hnamed : ∀ o ∈ os ++ more, o.Named)
  (hdistinct : ((os ++ more).map Outline.moduleName).Nodup)

include hdistinct in
theorem moduleName_ne {o o' : Outline} (ho : o ∈ os) (ho' : o' ∈ more) :
    o.moduleName ≠ o'.moduleName := by
  rw [List.map_append, List.nodup_append] at hdistinct
  exact hdistinct.2.2 _ (List.mem_map_of_mem ho) _ (List.mem_map_of_mem ho')

include hnamed hdistinct

/-- What the outlines declare, the added ones do not declare. -/
theorem id_ne_of_declaredBy {id : Text} (hid : declaredBy os id = true) {o' : Outline}
    (ho' : o' ∈ more) {e' : Entity} (he' : e' ∈ o'.entities) : e'.id ≠ id := by
  obtain ⟨o, ho, e, he, rfl⟩ := declaredBy_iff.mp hid
  intro heq
  have hsame := (hnamed o (List.mem_append_left _ ho)).eq_of_id_eq
    (hnamed o' (List.mem_append_right _ ho')) he he' heq.symm
  exact moduleName_ne hdistinct ho ho' hsame.1

theorem id_node_ne_of_declaredBy {id : Text} (hid : declaredBy os id = true) {o' : Outline}
    (ho' : o' ∈ more) {n : Node} (hn : n ∈ o'.declaredNodes) : n.id ≠ id := by
  have hentity : n.id ∈ o'.entities.map Entity.id := by
    rw [← (hnamed o' (List.mem_append_right _ ho')).ids_declaredNodes]
    exact List.mem_map_of_mem hn
  obtain ⟨e, he, heq⟩ := List.mem_map.mp hentity
  exact heq ▸ id_ne_of_declaredBy hnamed hdistinct hid ho' he

/-! ## Nodes -/

/-- The node of what the outlines declare stays as it is. -/
theorem node?_build_append {id : Text} (hid : declaredBy os id = true) :
    (build (os ++ more)).node? id = (build os).node? id := by
  have houtside : ∀ kind name, id ≠ externalId kind name := by
    obtain ⟨o, ho, e, he, rfl⟩ := declaredBy_iff.mp hid
    exact (hnamed o (List.mem_append_left _ ho)).id_ne_externalId he
  have hdeclared : (more.flatMap Outline.declaredNodes).filter (·.id = id) = [] := by
    refine List.filter_eq_nil_iff.mpr fun n hn => ?_
    obtain ⟨o, ho, hno⟩ := List.mem_flatMap.mp hn
    simpa using id_node_ne_of_declaredBy hnamed hdistinct hid ho hno
  have hnoted : more.filter (fun o => moduleId o.moduleName = id) = [] := by
    refine List.filter_eq_nil_iff.mpr fun o ho => ?_
    have hne : o.moduleEntity.id ≠ id :=
      id_ne_of_declaredBy hnamed hdistinct hid ho List.mem_cons_self
    exact fun heq => hne (of_decide_eq_true heq)
  rw [node?_build_declared houtside, node?_build_declared houtside, List.flatMap_append,
    List.filter_append, hdeclared, List.filter_append, hnoted, List.append_nil, List.append_nil]

/-- A node that is not marked stays as it is. -/
theorem mem_nodes_append {n : Node} (hn : n ∈ (Graph.build os).nodes)
    (hunmarked : n.isExternal = false) : n ∈ (Graph.build (os ++ more)).nodes := by
  rw [mem_nodes_iff] at hn ⊢
  have hdeclared : declaredBy os n.id = true := by
    obtain ⟨m, hm, hid⟩ := List.mem_map.mp (declared_of_unmarked hn hunmarked)
    obtain ⟨o, ho, hmo⟩ := List.mem_flatMap.mp hm
    have hentity : m.id ∈ o.entities.map Entity.id := by
      rw [← (hnamed o (List.mem_append_left _ ho)).ids_declaredNodes]
      exact List.mem_map_of_mem hmo
    obtain ⟨e, he, heq⟩ := List.mem_map.mp hentity
    exact declaredBy_iff.mpr ⟨o, ho, e, he, heq.trans hid⟩
  rw [node?_build_append hnamed hdistinct hdeclared]
  exact hn

/-! ## References -/

omit hnamed in
/-- The tables give the names of a module the meaning they had. -/
theorem agreeOn_append {o : Outline} (ho : o ∈ os) :
    Names.AgreeOn o.moduleName (declaredNames os) (declaredNames (os ++ more)) := by
  have hother : ∀ {κ : Type} {entries : Outline → List ((Text × κ) × Text)} (k : κ),
      (∀ o, ∀ entry ∈ entries o, entry.1.1 = o.moduleName) →
      (o.moduleName, k) ∉ (more.flatMap entries).map Prod.fst := by
    intro κ entries k hscope hmem
    obtain ⟨entry, hentry, hkey⟩ := List.mem_map.mp hmem
    obtain ⟨o', ho', hentry⟩ := List.mem_flatMap.mp hentry
    refine moduleName_ne hdistinct ho ho' ?_
    rw [← hscope o' entry hentry, hkey]
  rw [declaredNames_eq, declaredNames_eq]
  simp only [List.flatMap_append, Assoc.putAll_append]
  constructor
  · intro name
    exact (Assoc.get?_putAll_of_not_mem
      (hother name fun _ => Outline.scope_functionEntries) _).symm
  · intro name
    exact (Assoc.get?_putAll_of_not_mem
      (hother name fun _ => Outline.scope_classEntries) _).symm
  · intro className name
    exact (Assoc.get?_putAll_of_not_mem
      (hother (className, name) fun _ => Outline.scope_methodEntries) _).symm

/-- References from what the outlines declare, but for base classes, are counted as before. -/
theorem count_references_append {l : Link} (hl : l.relation ≠ .inherits)
    (hsource : declaredBy os l.source = true) :
    (references (os ++ more)).count l = (references os).count l := by
  have hmore : (more.flatMap (Outline.ownLinks (declaredNames (os ++ more)))).count l = 0 := by
    refine List.count_eq_zero.mpr fun hmem => ?_
    obtain ⟨o, ho, hlo⟩ := List.mem_flatMap.mp hmem
    obtain ⟨e, he, heq⟩ :=
      (hnamed o (List.mem_append_right _ ho)).source_of_mem_ownLinks hlo
    exact id_ne_of_declaredBy hnamed hdistinct hsource ho he heq
  have hsame : os.flatMap (Outline.ownLinks (declaredNames (os ++ more))) =
      os.flatMap (Outline.ownLinks (declaredNames os)) := by
    refine List.flatMap_congr fun o ho => ?_
    rw [Outline.ownLinks, Outline.ownLinks, (agreeOn_append hdistinct ho).callLinks_eq]
  rw [count_references_of_ne hl, count_references_of_ne hl, List.flatMap_append,
    List.count_append, hmore, hsame, Nat.add_zero]

/-- The edges from what the outlines declare, but for those to base classes, are the edges that
there were. -/
theorem edges_append :
    (Graph.build (os ++ more)).edges.filter (fun e =>
        e.link.relation ≠ .inherits ∧ declaredBy os e.link.source) =
      (Graph.build os).edges.filter fun e => e.link.relation ≠ .inherits := by
  refine eq_of_ascending Edge.id ?_ ?_ fun e => ?_
  · exact (edges_ascending (os ++ more)).sublist (List.filter_sublist.map Edge.id)
  · exact (edges_ascending os).sublist (List.filter_sublist.map Edge.id)
  · simp only [List.mem_filter, mem_edges_iff, decide_eq_true_eq]
    constructor
    · rintro ⟨⟨hpos, hweight⟩, hrelation, hsource⟩
      rw [count_references_append hnamed hdistinct hrelation hsource] at hweight
      exact ⟨⟨hpos, hweight⟩, hrelation⟩
    · rintro ⟨⟨hpos, hweight⟩, hrelation⟩
      have hsource : declaredBy os e.link.source = true := by
        rw [count_references_of_ne hrelation] at hweight
        obtain ⟨o, ho, hlo⟩ := List.mem_flatMap.mp (List.count_pos_iff.mp (hweight ▸ hpos))
        obtain ⟨entity, hentity, heq⟩ :=
          (hnamed o (List.mem_append_left _ ho)).source_of_mem_ownLinks hlo
        exact declaredBy_iff.mpr ⟨o, ho, entity, hentity, heq⟩
      rw [← count_references_append hnamed hdistinct hrelation hsource] at hweight
      exact ⟨⟨hpos, hweight⟩, hrelation, hsource⟩

end

/-! ## Base classes -/

theorem countP_inherits {os : List Outline} (id : Text) :
    (references os).countP (fun l => l.relation = .inherits ∧ l.target = id) =
      ((os.flatMap (Outline.baseLinks (declaredNames os))).map Link.target).count id := by
  have hown : (os.flatMap (Outline.ownLinks (declaredNames os))).countP
      (fun l => l.relation = .inherits ∧ l.target = id) = 0 := by
    refine countP_flatMap_eq_zero (fun o l hl => ?_) os
    simp [Outline.relation_of_mem_ownLinks hl]
  rw [(references_perm os).countP_eq, List.countP_append, hown, Nat.zero_add,
    List.count_eq_countP, List.countP_map]
  refine List.countP_congr fun l hl => ?_
  obtain ⟨o, -, hlo⟩ := List.mem_flatMap.mp hl
  simp [Outline.relation_of_mem_baseLinks hlo]

/-- The total weight of the edges of a graph that have a property. -/
def Graph.weightOf (p : Link → Bool) (g : Graph) : Nat :=
  ((g.edges.filter fun e => p e.link).map Edge.weight).sum

theorem weightOf_build (p : Link → Bool) (os : List Outline) :
    (Graph.build os).weightOf p = (references os).countP p := by
  have hperm := ((edges_perm (build os)).filter fun e => p e.link).map Edge.weight
  refine hperm.sum_eq.trans ?_
  rw [List.filter_map, List.map_map, ← totalWeight_build]
  rfl

/-- What the outlines declare inherits as often as it did. -/
theorem weightOf_inherits_append {os more : List Outline} (hnamed : ∀ o ∈ os ++ more, o.Named)
    (hdistinct : ((os ++ more).map Outline.moduleName).Nodup) {id : Text}
    (hid : declaredBy os id = true) :
    (Graph.build (os ++ more)).weightOf (fun l => l.relation = .inherits ∧ l.target = id) =
      (Graph.build os).weightOf fun l => l.relation = .inherits ∧ l.target = id := by
  have hmore : ((more.flatMap (Outline.baseLinks (declaredNames (os ++ more)))).map
      Link.target).count id = 0 := by
    refine List.count_eq_zero.mpr fun hmem => ?_
    obtain ⟨l, hl, rfl⟩ := List.mem_map.mp hmem
    obtain ⟨o, ho, hlo⟩ := List.mem_flatMap.mp hl
    obtain ⟨e, he, heq⟩ := Outline.target_of_mem_baseLinks hlo
    exact id_ne_of_declaredBy hnamed hdistinct hid ho he heq
  have hsame : (os.flatMap (Outline.baseLinks (declaredNames (os ++ more)))).map Link.target =
      (os.flatMap (Outline.baseLinks (declaredNames os))).map Link.target := by
    rw [List.map_flatMap, List.map_flatMap]
    exact List.flatMap_congr fun o _ => Outline.targets_baseLinks _ _ o
  rw [weightOf_build, weightOf_build, countP_inherits, countP_inherits, List.flatMap_append,
    List.map_append, List.count_append, hmore, hsame, Nat.add_zero]

/-! ## Added files -/

/-- Take files with plain names of modules, all distinct, in which names are of one segment, as
identifiers are, and lines count from 1, and add more of them to some. Every node that is not
marked as external stays with all its fields. The edges but for `inherits` that start at what
the first files declare are those of their own graph, with their weights. And every class of
theirs has `inherits` edges of the same total weight, though not from the same nodes. -/
theorem extension_keeps_declared (os more : List Outline) (hnamed : ∀ o ∈ os ++ more, o.Named)
    (hdistinct : ((os ++ more).map Outline.moduleName).Nodup) :
    (∀ n ∈ (Graph.build os).nodes, n.isExternal = false →
      n ∈ (Graph.build (os ++ more)).nodes) ∧
    (Graph.build (os ++ more)).edges.filter (fun e =>
        e.link.relation ≠ .inherits ∧ declaredBy os e.link.source) =
      (Graph.build os).edges.filter (fun e => e.link.relation ≠ .inherits) ∧
    ∀ o ∈ os, ∀ c ∈ o.classes,
      (Graph.build (os ++ more)).weightOf
          (fun l => l.relation = .inherits ∧ l.target = (o.classEntity c).id) =
        (Graph.build os).weightOf
          fun l => l.relation = .inherits ∧ l.target = (o.classEntity c).id := by
  refine ⟨?_, edges_append hnamed hdistinct, ?_⟩
  · exact fun n hn hunmarked => mem_nodes_append hnamed hdistinct hn hunmarked
  · intro o ho c hc
    refine weightOf_inherits_append hnamed hdistinct ?_
    refine declaredBy_iff.mpr ⟨o, ho, o.classEntity c, ?_, rfl⟩
    exact Outline.classEntity_mem hc

/-- A class whose base class the file does not declare, with a method that calls a function of
that name. -/
def derivedFile : Outline :=
  { filePath := some "a.py".toList, moduleName := ['a']
    classes := [{ name := ['C'], bases := [['B']], firstLine := 1, lastLine := 2
                  methods := [{ name := ['m'], firstLine := 2, lastLine := 2
                                calls := [{ name := ['B'], line := 2, column := 9 }] }] }] }

/-- The base class. -/
def baseFile : Outline :=
  { filePath := some "b.py".toList, moduleName := ['b']
    classes := [{ name := ['B'], firstLine := 1, lastLine := 1 }] }

/-- When the file with the base class is added, the class inherits from what is declared there
and no longer from a placeholder, once as before; its method still uses the placeholder of that
name. -/
theorem extension_keeps_declared_laterBase :
    (∀ o ∈ [derivedFile] ++ [baseFile], o.Named) ∧
    (([derivedFile] ++ [baseFile]).map Outline.moduleName).Nodup ∧
    (Graph.build ([derivedFile] ++ [baseFile])).weightOf
      (fun l => l.relation = .inherits ∧ l.target = "a:class:C:1".toList) = 1 ∧
    ⟨⟨"external:class:B:0".toList, .inherits, "a:class:C:1".toList⟩, 1⟩ ∈
      (Graph.build [derivedFile]).edges ∧
    ⟨⟨"b:class:B:1".toList, .inherits, "a:class:C:1".toList⟩, 1⟩ ∈
      (Graph.build ([derivedFile] ++ [baseFile])).edges ∧
    ⟨⟨"a:function:C.m:2".toList, .uses, "external:function:B:0".toList⟩, 1⟩ ∈
      (Graph.build ([derivedFile] ++ [baseFile])).edges := by
  have hnamed : ∀ o ∈ [derivedFile] ++ [baseFile], o.Named := by decide
  have hdistinct : (([derivedFile] ++ [baseFile]).map Outline.moduleName).Nodup := by decide
  obtain ⟨-, hedges, hweight⟩ :=
    extension_keeps_declared [derivedFile] [baseFile] hnamed hdistinct
  refine ⟨hnamed, hdistinct, ?_, ?_, ?_, ?_⟩
  · refine (hweight derivedFile List.mem_cons_self _ List.mem_cons_self).trans ?_
    rw [weightOf_build]
    decide +kernel
  · rw [mem_edges_iff]
    decide +kernel
  · rw [mem_edges_iff]
    decide +kernel
  · -- the edge is one of the first file's own graph, and so is kept
    have hown : ⟨⟨"a:function:C.m:2".toList, .uses, "external:function:B:0".toList⟩, 1⟩ ∈
        (Graph.build [derivedFile]).edges.filter fun e => e.link.relation ≠ .inherits := by
      rw [List.mem_filter, mem_edges_iff]
      decide +kernel
    rw [← hedges] at hown
    exact (List.mem_filter.mp hown).1

end SymbolGraph
