import SymbolGraph.Proofs.Draft.Node
import SymbolGraph.Proofs.Draft.Reference
set_option autoImplicit false

/-!
# Edges end in nodes

What a reference names is put in before it is referred to, so every edge leads to a node of its
graph. It also comes from one, except that the calls of a method are counted from the qualified
name of the method, and a method of a class without a name is declared by its bare name. A graph
is closed exactly when no such call is left without a node (`edges_closed_iff`).
-/

namespace SymbolGraph

open Draft

variable {os : List Outline} {o : Outline}

/-! ## What is mentioned -/

theorem mentioned_of_declared (ho : o ∈ os) {id : Text}
    (hid : id ∈ o.declaredNodes.map Node.id) : id ∈ (mentionedNodes os).map Node.id := by
  obtain ⟨n, hn, rfl⟩ := List.mem_map.mp hid
  exact List.mem_map_of_mem (List.mem_append_left _ (List.mem_flatMap.mpr ⟨o, ho, hn⟩))

theorem mentioned_of_placeholder (ho : o ∈ os) {n : Node}
    (hn : n ∈ o.placeholders (declaredNames os)) : n.id ∈ (mentionedNodes os).map Node.id :=
  List.mem_map_of_mem (List.mem_append_right _ (List.mem_flatMap.mpr ⟨o, ho, hn⟩))

theorem mentioned_module (ho : o ∈ os) :
    moduleId o.moduleName ∈ (mentionedNodes os).map Node.id := by
  refine mentioned_of_declared ho ?_
  rw [ids_declaredNodes]
  exact List.mem_cons_self

theorem mentioned_class (ho : o ∈ os) {c : ClassDecl} (hc : c ∈ o.classes) :
    (c.node o).id ∈ (mentionedNodes os).map Node.id := by
  refine mentioned_of_declared ho ?_
  rw [ids_declaredNodes, named_declareChanges]
  refine List.mem_cons_of_mem _ (List.mem_append_left _ (List.mem_append_left _ ?_))
  exact List.mem_flatMap.mpr ⟨c, hc, List.mem_cons_self⟩

theorem mentioned_method (ho : o ∈ os) {c : ClassDecl} (hc : c ∈ o.classes) {f : FunctionDecl}
    (hf : f ∈ c.methods) : (f.node o (some c.name)).id ∈ (mentionedNodes os).map Node.id := by
  refine mentioned_of_declared ho ?_
  rw [ids_declaredNodes, named_declareChanges]
  refine List.mem_cons_of_mem _ (List.mem_append_left _ (List.mem_append_left _ ?_))
  exact List.mem_flatMap.mpr ⟨c, hc, List.mem_cons_of_mem _ (List.mem_map.mpr ⟨f, hf, rfl⟩)⟩

theorem mentioned_function (ho : o ∈ os) {f : FunctionDecl} (hf : f ∈ o.functions) :
    (f.node o none).id ∈ (mentionedNodes os).map Node.id := by
  refine mentioned_of_declared ho ?_
  rw [ids_declaredNodes, named_declareChanges]
  refine List.mem_cons_of_mem _ (List.mem_append_left _ (List.mem_append_right _ ?_))
  exact List.mem_map.mpr ⟨f, hf, rfl⟩

theorem mentioned_variable (ho : o ∈ os) {v : VariableDecl} (hv : v ∈ o.globals) :
    (v.node o).id ∈ (mentionedNodes os).map Node.id := by
  refine mentioned_of_declared ho ?_
  rw [ids_declaredNodes]
  exact List.mem_cons_of_mem _ (List.mem_append_right _ (List.mem_map.mpr ⟨v, hv, rfl⟩))

/-- What a call or a base class finds in the tables is in the tables. -/
theorem mem_ids_of_mem_targets {names : Names} {id : Text}
    (ht : .declared id ∈ o.targets names) : id ∈ names.ids := by
  simp only [Outline.targets, List.mem_append, List.mem_flatMap, List.mem_map] at ht
  obtain (⟨f, -, c, -, hc⟩ | ⟨d, -, f, -, c, -, hc⟩) | ⟨d, -, base, -, hb⟩ := ht
  · exact Names.mem_ids_of_callTarget hc
  · exact Names.mem_ids_of_callTarget hc
  · exact Names.mem_ids_of_baseTarget hb

/-- What a call or a base class names is mentioned. -/
theorem mentioned_target (ho : o ∈ os) {t : Target} (ht : t ∈ o.targets (declaredNames os)) :
    t.id ∈ (mentionedNodes os).map Node.id := by
  cases t with
  | declared id =>
      obtain ⟨n, hn, rfl⟩ :=
        List.mem_map.mp (declared_of_mem_namesIds (mem_ids_of_mem_targets ht))
      exact List.mem_map_of_mem (List.mem_append_left _ hn)
  | external kind name =>
      refine mentioned_of_placeholder ho (n := externalNode kind name) ?_
      exact List.mem_append_right _ (List.mem_filterMap.mpr ⟨_, ht, rfl⟩)

/-- A method of a class with a name is labelled by its qualified name. -/
theorem label_of_named {name : Text} (hname : name ≠ []) (f : FunctionDecl) :
    f.label (some name) = qualifiedName name f.name := by
  obtain ⟨first, rest, rfl⟩ := List.exists_cons_of_ne_nil hname
  rfl

theorem id_method_of_named {c : ClassDecl} (hname : c.name ≠ []) (f : FunctionDecl) :
    (f.node o (some c.name)).id = methodSource o c f := by
  rw [FunctionDecl.node, methodSource, label_of_named hname]

/-! ## Ends of references -/

/-- A reference leads to something that is mentioned. -/
theorem mentioned_target_of_reference {l : Link} (hl : l ∈ references os) :
    l.target ∈ (mentionedNodes os).map Node.id := by
  simp only [references, List.mem_append, List.mem_flatMap] at hl
  obtain ((⟨o, ho, hdefinition⟩ | ⟨o, ho, himport⟩) | ⟨o, ho, hcall⟩) | ⟨o, ho, hbase⟩ := hl
  · simp only [Outline.definitions, List.mem_append, List.mem_map, List.mem_flatMap,
      List.mem_cons] at hdefinition
    obtain (⟨c, hc, rfl | ⟨f, hf, rfl⟩⟩ | ⟨f, hf, rfl⟩) | ⟨v, hv, rfl⟩ := hdefinition
    · exact mentioned_class ho hc
    · exact mentioned_method ho hc hf
    · exact mentioned_function ho hf
    · exact mentioned_variable ho hv
  · obtain ⟨name, hname, rfl⟩ := List.mem_map.mp himport
    refine mentioned_of_placeholder ho (n := externalNode .module_ name) ?_
    refine List.mem_append_left _ (List.mem_map_of_mem ?_)
    exact (importedModules_perm o).mem_iff.mpr hname
  · simp only [Outline.callLinks, List.mem_append, List.mem_flatMap, List.mem_map] at hcall
    obtain ⟨f, hf, c, hc, rfl⟩ | ⟨d, hd, f, hf, c, hc, rfl⟩ := hcall
    · refine mentioned_target ho (t := callee (declaredNames os) o none c) ?_
      simp only [Outline.targets, List.mem_append, List.mem_flatMap, List.mem_map]
      exact Or.inl (Or.inl ⟨f, hf, c, hc, rfl⟩)
    · refine mentioned_target ho (t := callee (declaredNames os) o (some d.name) c) ?_
      simp only [Outline.targets, List.mem_append, List.mem_flatMap, List.mem_map]
      exact Or.inl (Or.inr ⟨d, hd, f, hf, c, hc, rfl⟩)
  · simp only [Outline.baseLinks, List.mem_flatMap, List.mem_map] at hbase
    obtain ⟨c, hc, base, -, rfl⟩ := hbase
    exact mentioned_class ho hc

/-- A reference comes from something that is mentioned, or is a call of a method whose class has
no name. -/
theorem mentioned_source_of_reference {l : Link} (hl : l ∈ references os) :
    l.source ∈ (mentionedNodes os).map Node.id ∨
      ∃ o ∈ os, ∃ c ∈ o.classes, c.name = [] ∧ ∃ f ∈ c.methods, f.calls ≠ [] ∧
        l.source = methodSource o c f := by
  simp only [references, List.mem_append, List.mem_flatMap] at hl
  obtain ((⟨o, ho, hdefinition⟩ | ⟨o, ho, himport⟩) | ⟨o, ho, hcall⟩) | ⟨o, ho, hbase⟩ := hl
  · simp only [Outline.definitions, List.mem_append, List.mem_map, List.mem_flatMap,
      List.mem_cons] at hdefinition
    obtain (⟨c, hc, rfl | ⟨f, hf, rfl⟩⟩ | ⟨f, hf, rfl⟩) | ⟨v, hv, rfl⟩ := hdefinition
    · exact Or.inl (mentioned_module ho)
    · exact Or.inl (mentioned_class ho hc)
    · exact Or.inl (mentioned_module ho)
    · exact Or.inl (mentioned_module ho)
  · obtain ⟨name, -, rfl⟩ := List.mem_map.mp himport
    exact Or.inl (mentioned_module ho)
  · simp only [Outline.callLinks, List.mem_append, List.mem_flatMap, List.mem_map] at hcall
    obtain ⟨f, hf, c, -, rfl⟩ | ⟨d, hd, f, hf, c, hc, rfl⟩ := hcall
    · exact Or.inl (mentioned_function ho hf)
    · by_cases hname : d.name = []
      · exact Or.inr ⟨o, ho, d, hd, hname, f, hf, List.ne_nil_of_mem hc, rfl⟩
      · left
        rw [show (o.callLink (declaredNames os) (methodSource o d f) (some d.name) c).source =
          (f.node o (some d.name)).id from (id_method_of_named hname f).symm]
        exact mentioned_method ho hd hf
  · simp only [Outline.baseLinks, List.mem_flatMap, List.mem_map] at hbase
    obtain ⟨c, hc, base, hb, rfl⟩ := hbase
    refine Or.inl
      (mentioned_target ho (t := (declaredNames os).baseTarget o.moduleName base) ?_)
    simp only [Outline.targets, List.mem_append, List.mem_flatMap, List.mem_map,
      baseNames_eq_filter]
    exact Or.inr ⟨c, hc, base, hb, rfl⟩

/-- A method that calls something is the source of a reference, by its qualified name. -/
theorem reference_from_method (ho : o ∈ os) {c : ClassDecl} (hc : c ∈ o.classes)
    {f : FunctionDecl} (hf : f ∈ c.methods) (hcalls : f.calls ≠ []) :
    ∃ l ∈ references os, l.source = methodSource o c f := by
  obtain ⟨call, hcall⟩ := List.exists_mem_of_ne_nil _ hcalls
  refine ⟨o.callLink (declaredNames os) (methodSource o c f) (some c.name) call, ?_, rfl⟩
  simp only [references, List.mem_append, List.mem_flatMap, Outline.callLinks, List.mem_map]
  exact Or.inl (Or.inr ⟨o, ho, Or.inr ⟨c, hc, f, hf, call, hcall, rfl⟩⟩)

/-! ## Closed graphs -/

/-- While modules are linked, the node of a declared module is there. -/
theorem node?_module_isSome (ho : o ∈ os) (done : List Outline) :
    ((o.importedModules.foldl (linkImport o)
      (done.foldl link (os.foldl declare {}))).node? (moduleId o.moduleName)).isSome =
        true := by
  have hdeclared : moduleId o.moduleName ∈ (os.foldl declare {}).ids := by
    rw [declareAll_eq_replay, mem_ids_replay, List.filterMap_flatMap]
    simp only [nodes_declareChanges]
    refine Or.inr (List.mem_map.mpr ⟨o.node, ?_, rfl⟩)
    exact List.mem_flatMap.mpr ⟨o, ho, List.mem_cons_self⟩
  have hsteps := ((Follows.foldl Follows.link done).comp
    (Follows.foldl (Follows.linkImport o) o.importedModules)).eq_replay (os.foldl declare {})
  have hkept : moduleId o.moduleName ∈ (o.importedModules.foldl (linkImport o)
      (done.foldl link (os.foldl declare {}))).ids := by
    rw [hsteps, mem_ids_replay]
    exact Or.inl hdeclared
  obtain ⟨n, hn, hid⟩ := List.mem_map.mp hkept
  exact List.find?_isSome.mpr ⟨n, hn, decide_eq_true hid⟩

/-- Every edge has its source and its target among the nodes exactly when every method that
calls something, in a class without a name, has its qualified name's identifier among those
mentioned. The target is there in any case, and so is the module's node whenever its aliases are
noted. -/
theorem edges_closed_iff (os : List Outline) :
    ((∀ e ∈ (Graph.build os).edges, e.link.source ∈ (Graph.build os).nodes.map Node.id ∧
        e.link.target ∈ (Graph.build os).nodes.map Node.id) ↔
      ∀ o ∈ os, ∀ c ∈ o.classes, c.name = [] → ∀ f ∈ c.methods, f.calls ≠ [] →
        methodSource o c f ∈ (mentionedNodes os).map Node.id) ∧
    (∀ e ∈ (Graph.build os).edges, e.link.target ∈ (Graph.build os).nodes.map Node.id) ∧
    (∀ done o rest, os = done ++ o :: rest →
      ((o.importedModules.foldl (linkImport o)
        (done.foldl link (os.foldl declare {}))).node? (moduleId o.moduleName)).isSome) := by
  have hreference : ∀ e ∈ (Graph.build os).edges, e.link ∈ references os := fun e he =>
    (mem_references_iff os e.link).mpr ⟨e, he, rfl⟩
  have htargets : ∀ e ∈ (Graph.build os).edges,
      e.link.target ∈ (Graph.build os).nodes.map Node.id := fun e he =>
    (mem_ids_graph _ os).mpr (mentioned_target_of_reference (hreference e he))
  refine ⟨⟨?_, ?_⟩, htargets, ?_⟩
  · intro hclosed o ho c hc _ f hf hcalls
    obtain ⟨l, hl, hsource⟩ := reference_from_method ho hc hf hcalls
    obtain ⟨e, he, rfl⟩ := (mem_references_iff os l).mp hl
    rw [← hsource, ← mem_ids_graph]
    exact (hclosed e he).1
  · intro hmethods e he
    refine ⟨?_, htargets e he⟩
    rw [mem_ids_graph]
    obtain hsource | ⟨o, ho, c, hc, hname, f, hf, hcalls, hsource⟩ :=
      mentioned_source_of_reference (hreference e he)
    · exact hsource
    · exact hsource ▸ hmethods o ho c hc hname f hf hcalls
  · intro done o rest hos
    have ho : o ∈ os := hos ▸ List.mem_append_right done List.mem_cons_self
    exact node?_module_isSome ho done

/-- A module with a class that has no name, whose method calls something. -/
def namelessClass : Outline :=
  { filePath := some "m.py".toList, moduleName := ['m']
    classes := [{ name := [], firstLine := 1, lastLine := 2
                  methods := [{ name := ['f'], firstLine := 2, lastLine := 2
                                calls := [{ name := ['g'], line := 2, column := 1 }] }] }] }

/-- The call of a method whose class has no name comes from no node. -/
theorem namelessClass_edge_without_source :
    ∃ e ∈ (Graph.build [namelessClass]).edges,
      e.link.source ∉ (Graph.build [namelessClass]).nodes.map Node.id := by
  -- sorting does not compute in the kernel, so both facts are taken to the unsorted lists
  have hcall : ⟨"m:function:.f:2".toList, .uses, "external:function:g:0".toList⟩ ∈
      references [namelessClass] := by decide +kernel
  obtain ⟨e, he, hlink⟩ := (mem_references_iff [namelessClass] _).mp hcall
  refine ⟨e, he, ?_⟩
  rw [mem_ids_graph, hlink]
  decide +kernel

end SymbolGraph
