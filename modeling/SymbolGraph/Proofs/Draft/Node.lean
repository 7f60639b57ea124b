import SymbolGraph.Proofs.Assoc
import SymbolGraph.Proofs.Draft.Change
set_option autoImplicit false

/-!
# The nodes of a draft

Putting a node in never removes one, and a draft never holds two nodes with one identifier. So
the identifiers of a draft's nodes are those of the nodes that its changes put in: what its
outlines declare, and a placeholder for everything that they refer to and do not declare. The
tables of names only ever give identifiers of nodes that were declared.
-/

namespace SymbolGraph

/-! ## The nodes of outlines -/

/-- The nodes of what an outline declares. -/
def Outline.declaredNodes (o : Outline) : List Node :=
  o.node
    :: (o.classes.flatMap (fun c => c.node o :: c.methods.map fun f => f.node o (some c.name))
    ++ o.functions.map (fun f => f.node o none) ++ o.globals.map (fun v => v.node o))

/-- The node for a target that no file declares. -/
def Target.placeholder? : Target → Option Node
  | declared _ => none
  | external kind name => some (externalNode kind name)

/-- What the calls and the base classes of an outline name. -/
def Outline.targets (names : Names) (o : Outline) : List Target :=
  o.functions.flatMap (fun f => f.calls.map (Draft.callee names o none))
    ++ o.classes.flatMap (fun c => c.methods.flatMap fun f =>
      f.calls.map (Draft.callee names o (some c.name)))
    ++ o.classes.flatMap (fun c => (Draft.baseNames c).map (names.baseTarget o.moduleName))

/-- The nodes for what an outline refers to and no file declares. -/
def Outline.placeholders (names : Names) (o : Outline) : List Node :=
  o.importedModules.map (externalNode .module_)
    ++ (o.targets names).filterMap Target.placeholder?

/-- The nodes of what some outlines declare and, behind them, of what they refer to besides. -/
def mentionedNodes (os : List Outline) : List Node :=
  os.flatMap Outline.declaredNodes
    ++ os.flatMap (Outline.placeholders (Draft.declaredNames os))

/-- The identifiers that the tables give. -/
def Names.ids (names : Names) : List Text :=
  names.functions.map Prod.snd ++ names.classes.map Prod.snd ++ names.methods.map Prod.snd

/-! ## Changes put in what is listed -/

namespace Draft

theorem nodes_declareChanges (o : Outline) :
    (declareChanges o).filterMap Change.node? = o.declaredNodes := by
  simp [declareChanges, classChanges, methodChanges, functionChanges, variableChanges,
    Change.node?, List.filterMap_cons, List.filterMap_flatMap, List.map_eq_flatMap,
    Outline.declaredNodes]

theorem nodes_targetChanges (t : Target) :
    (targetChanges t).filterMap Change.node? = t.placeholder?.toList := by
  cases t <;> rfl

/-- Referring to targets puts in their placeholders. -/
theorem nodes_referChanges {α : Type} (target : α → Target) (link : α → Link) (as : List α) :
    (as.flatMap fun a => targetChanges (target a) ++ [.refer (link a)]).filterMap Change.node? =
      (as.map target).filterMap Target.placeholder? := by
  induction as with
  | nil => rfl
  | cons a as ih =>
      rw [List.flatMap_cons, List.filterMap_append, ih, List.map_cons, List.filterMap_cons,
        List.filterMap_append, nodes_targetChanges]
      cases (target a).placeholder? <;> simp [Change.node?]

theorem nodes_linkChanges (names : Names) (o : Outline) :
    (linkChanges names o).filterMap Change.node? = o.placeholders names := by
  have hcalls : ∀ (source : Text) (within : Option Text) (cs : List CallSite),
      (cs.flatMap (callChanges names o source within)).filterMap Change.node? =
        (cs.map (callee names o within)).filterMap Target.placeholder? :=
    fun source within => nodes_referChanges (callee names o within) _
  have hbases : ∀ (c : ClassDecl) (bases : List Text),
      (bases.flatMap (baseChanges names o c)).filterMap Change.node? =
        (bases.map (names.baseTarget o.moduleName)).filterMap Target.placeholder? :=
    fun c => nodes_referChanges (names.baseTarget o.moduleName) _
  simp only [linkChanges, List.filterMap_append, List.filterMap_flatMap, functionCallChanges,
    methodCallChanges, Outline.placeholders, Outline.targets, List.append_assoc]
  simp only [← List.filterMap_flatMap, hcalls, hbases]
  simp [importChanges, Change.node?, List.filterMap_flatMap, List.filterMap_cons,
    List.map_eq_flatMap]

theorem nodes_buildChanges (os : List Outline) :
    (buildChanges os).filterMap Change.node? = mentionedNodes os := by
  simp only [buildChanges, List.filterMap_append, List.filterMap_flatMap, nodes_declareChanges,
    nodes_linkChanges, mentionedNodes]

/-! ## Identifiers of nodes -/

/-- The identifiers of a draft's nodes. -/
def ids (d : Draft) : List Text := d.nodes.map Node.id

@[simp] theorem id_merge (old new : Node) : (old.merge new).id = old.id := rfl

/-- Putting a node in adds its identifier at the end unless it is there. -/
theorem ids_insertNode (n : Node) (ns : List Node) :
    (insertNode n ns).map Node.id =
      if n.id ∈ ns.map Node.id then ns.map Node.id else ns.map Node.id ++ [n.id] := by
  induction ns with
  | nil => rfl
  | cons m ms ih =>
      by_cases hm : m.id = n.id
      · simp [insertNode, hm]
      · simp only [insertNode, if_neg hm, List.map_cons, ih, List.mem_cons,
          Ne.symm hm, false_or]
        split <;> simp

/-- Noting aliases changes no identifier. -/
theorem ids_noteAliases (o : Outline) (d : Draft) : (noteAliases o d).ids = d.ids := by
  simp only [ids, noteAliases, List.map_map]
  refine List.map_congr_left fun n _ => ?_
  simp only [Function.comp]
  split <;> rfl

/-- The identifiers after a change are those before it and that of the node put in. -/
theorem mem_ids_apply (id : Text) (d : Draft) (c : Change) :
    id ∈ (d.apply c).ids ↔ id ∈ d.ids ∨ ∃ n, c.node? = some n ∧ n.id = id := by
  cases c with
  | insert n =>
      rw [apply, ids, Draft.insert, ids_insertNode, ← ids]
      by_cases hn : n.id ∈ d.ids
      · rw [if_pos hn]
        refine ⟨Or.inl, ?_⟩
        rintro (hid | ⟨m, hm, rfl⟩)
        · exact hid
        · exact Option.some.inj hm ▸ hn
      · simp [hn, Change.node?, eq_comm]
  | note o => simp [apply, ids_noteAliases, Change.node?]
  | nameFunction scope name id' => simp [apply, ids, Change.node?]
  | nameClass scope name id' => simp [apply, ids, Change.node?]
  | nameMethod scope className name id' => simp [apply, ids, Change.node?]
  | refer l => simp [apply, ids, refer, Change.node?]

/-- The identifiers after a replay are those before it and those of the nodes put in. -/
theorem mem_ids_replay (id : Text) (d : Draft) (cs : List Change) :
    id ∈ (d.replay cs).ids ↔ id ∈ d.ids ∨ id ∈ (cs.filterMap Change.node?).map Node.id := by
  induction cs generalizing d with
  | nil => simp
  | cons c cs ih =>
      rw [replay_cons, ih, mem_ids_apply, or_assoc, List.filterMap_cons]
      cases hnode : c.node? with
      | none => simp
      | some n => simp [eq_comm]

/-- The nodes of a draft have the identifiers of what its outlines mention. -/
theorem mem_ids_build (id : Text) (os : List Outline) :
    id ∈ (build os).ids ↔ id ∈ (mentionedNodes os).map Node.id := by
  rw [build_eq_replay, mem_ids_replay, nodes_buildChanges]
  simp [ids]

/-- A change leaves the identifiers of a draft's nodes distinct. -/
theorem nodup_ids_apply {d : Draft} (hd : d.ids.Nodup) (c : Change) :
    (d.apply c).ids.Nodup := by
  cases c with
  | insert n =>
      rw [apply, ids, Draft.insert, ids_insertNode, ← ids]
      split
      · exact hd
      · next hnew =>
        refine List.nodup_append.mpr ⟨hd, List.pairwise_singleton _ _, ?_⟩
        intro id hid id' hid'
        rw [List.mem_singleton.mp hid']
        exact fun heq => hnew (heq ▸ hid)
  | note o => rw [apply, ids_noteAliases]; exact hd
  | nameFunction scope name id => exact hd
  | nameClass scope name id => exact hd
  | nameMethod scope className name id => exact hd
  | refer l => exact hd

/-- No draft has two nodes with one identifier. -/
theorem nodup_ids_build (os : List Outline) : (build os).ids.Nodup := by
  rw [build_eq_replay]
  exact replay_induction (P := fun d => d.ids.Nodup) List.nodup_nil
    fun d c _ hd => nodup_ids_apply hd c

/-- The nodes of a draft's graph are its nodes. -/
theorem nodes_perm (d : Draft) : d.graph.nodes.Perm d.nodes := List.mergeSort_perm _ _

/-- The nodes of a graph have the identifiers of what its outlines mention. -/
theorem mem_ids_graph (id : Text) (os : List Outline) :
    id ∈ (Graph.build os).nodes.map Node.id ↔ id ∈ (mentionedNodes os).map Node.id :=
  ((nodes_perm (build os)).map Node.id).mem_iff.trans (mem_ids_build id os)

/-! ## Identifiers in the tables -/

theorem mem_values_put {κ : Type} [DecidableEq κ] {k : κ} {id v : Text}
    {table : List (κ × Text)} (hid : id ∈ (Assoc.put k v table).map Prod.snd) :
    id = v ∨ id ∈ table.map Prod.snd := by
  obtain ⟨entry, hentry, rfl⟩ := List.mem_map.mp hid
  obtain htable | rfl := Assoc.mem_put hentry
  · exact Or.inr (List.mem_map_of_mem htable)
  · exact Or.inl rfl

/-- What the tables give after a change they gave before it, or the change entered it. -/
theorem mem_namesIds_apply {id : Text} {d : Draft} {c : Change}
    (hid : id ∈ (d.apply c).toNames.ids) : id ∈ d.toNames.ids ∨ c.named? = some id := by
  cases c with
  | insert n => exact Or.inl hid
  | note o => exact Or.inl hid
  | refer l => exact Or.inl hid
  | nameFunction scope name v =>
      simp only [Names.ids, apply, List.mem_append] at hid ⊢
      obtain (hf | hc) | hm := hid
      · obtain rfl | hf := mem_values_put hf
        · exact Or.inr rfl
        · exact Or.inl (Or.inl (Or.inl hf))
      · exact Or.inl (Or.inl (Or.inr hc))
      · exact Or.inl (Or.inr hm)
  | nameClass scope name v =>
      simp only [Names.ids, apply, List.mem_append] at hid ⊢
      obtain (hf | hc) | hm := hid
      · exact Or.inl (Or.inl (Or.inl hf))
      · obtain rfl | hc := mem_values_put hc
        · exact Or.inr rfl
        · exact Or.inl (Or.inl (Or.inr hc))
      · exact Or.inl (Or.inr hm)
  | nameMethod scope className name v =>
      simp only [Names.ids, apply, List.mem_append] at hid ⊢
      obtain (hf | hc) | hm := hid
      · exact Or.inl (Or.inl (Or.inl hf))
      · exact Or.inl (Or.inl (Or.inr hc))
      · obtain rfl | hm := mem_values_put hm
        · exact Or.inr rfl
        · exact Or.inl (Or.inr hm)

/-- What the tables give after a replay they gave before it, or a change entered it. -/
theorem mem_namesIds_replay {id : Text} {d : Draft} {cs : List Change}
    (hid : id ∈ (d.replay cs).toNames.ids) :
    id ∈ d.toNames.ids ∨ id ∈ cs.filterMap Change.named? := by
  induction cs generalizing d with
  | nil => exact Or.inl hid
  | cons c cs ih =>
      obtain hstep | hlater := ih hid
      · refine (mem_namesIds_apply hstep).imp_right fun hnamed => ?_
        exact List.mem_filterMap.mpr ⟨c, List.mem_cons_self, hnamed⟩
      · obtain ⟨c', hc', hnamed⟩ := List.mem_filterMap.mp hlater
        exact Or.inr (List.mem_filterMap.mpr ⟨c', List.mem_cons_of_mem c hc', hnamed⟩)

/-- Declaring enters the identifiers of classes, methods and functions. -/
theorem named_declareChanges (o : Outline) :
    (declareChanges o).filterMap Change.named? =
      o.classes.flatMap (fun c =>
        (c.node o).id :: c.methods.map fun f => (f.node o (some c.name)).id)
        ++ o.functions.map fun f => (f.node o none).id := by
  simp [declareChanges, classChanges, methodChanges, functionChanges, variableChanges,
    Change.named?, List.filterMap_cons, List.filterMap_flatMap, List.map_eq_flatMap]

theorem ids_declaredNodes (o : Outline) :
    o.declaredNodes.map Node.id = moduleId o.moduleName ::
      ((declareChanges o).filterMap Change.named? ++ o.globals.map fun v => (v.node o).id) := by
  rw [named_declareChanges]
  simp [Outline.declaredNodes, Outline.node, List.map_flatMap, Function.comp_def]

/-- The tables give identifiers of declared nodes only. -/
theorem declared_of_mem_namesIds {id : Text} {os : List Outline}
    (hid : id ∈ (declaredNames os).ids) :
    id ∈ (os.flatMap Outline.declaredNodes).map Node.id := by
  rw [declaredNames, declareAll_eq_replay] at hid
  obtain hstart | hnamed := mem_namesIds_replay hid
  · exact absurd hstart List.not_mem_nil
  · rw [List.filterMap_flatMap] at hnamed
    obtain ⟨o, ho, hnamed⟩ := List.mem_flatMap.mp hnamed
    have hdeclared : id ∈ o.declaredNodes.map Node.id := by
      rw [ids_declaredNodes]
      exact List.mem_cons_of_mem _ (List.mem_append_left _ hnamed)
    obtain ⟨n, hn, rfl⟩ := List.mem_map.mp hdeclared
    exact List.mem_map.mpr ⟨n, List.mem_flatMap.mpr ⟨o, ho, hn⟩, rfl⟩

end Draft

/-! ## Resolution gives what the tables give -/

namespace Names

theorem mem_values_of_get? {κ : Type} [DecidableEq κ] {k : κ} {id : Text}
    {table : List (κ × Text)} (hget : Assoc.get? k table = some id) :
    id ∈ table.map Prod.snd :=
  List.mem_map_of_mem (Assoc.mem_of_get? hget)

theorem mem_ids_of_function {names : Names} {k : Text × Text} {id : Text}
    (hget : Assoc.get? k names.functions = some id) : id ∈ names.ids := by
  simp only [ids, List.mem_append]
  exact Or.inl (Or.inl (mem_values_of_get? hget))

theorem mem_ids_of_class {names : Names} {id : Text} (hid : id ∈ names.classes.map Prod.snd) :
    id ∈ names.ids := by
  simp only [ids, List.mem_append]
  exact Or.inl (Or.inr hid)

theorem mem_ids_of_method {names : Names} {k : Text × Text × Text} {id : Text}
    (hget : Assoc.get? k names.methods = some id) : id ∈ names.ids := by
  simp only [ids, List.mem_append]
  exact Or.inr (mem_values_of_get? hget)

/-- A call that finds something declared finds a function or a method of its module. -/
theorem declared_of_callTarget {names : Names} {scope name id : Text} {within : Option Text}
    {aliases : List (Text × Text)}
    (htarget : names.callTarget scope name within aliases = .declared id) :
    (∃ function, Assoc.get? (scope, function) names.functions = some id) ∨
      ∃ className method, Assoc.get? (scope, className, method) names.methods = some id := by
  have hmethodOf : ∀ {method : Text}, names.methodOf? scope within method = some id →
      ∃ className, Assoc.get? (scope, className, method) names.methods = some id := by
    intro method hget
    unfold methodOf? at hget
    split at hget
    · exact absurd hget.symm (Option.some_ne_none id)
    · exact absurd hget.symm (Option.some_ne_none id)
    · exact ⟨_, hget⟩
  unfold callTarget at htarget
  split at htarget
  · right
    simp only [dottedTarget] at htarget
    split at htarget <;> split at htarget
    · next found =>
      obtain rfl := Target.declared.inj htarget
      obtain ⟨className, hmethod⟩ := hmethodOf found
      exact ⟨className, _, hmethod⟩
    · exact absurd htarget Target.noConfusion
    · next found =>
      obtain rfl := Target.declared.inj htarget
      split at found
      · exact ⟨_, _, found⟩
      · exact absurd found.symm (Option.some_ne_none _)
    · exact absurd htarget Target.noConfusion
  · simp only [bareTarget] at htarget
    split at htarget
    · next found =>
      obtain rfl := Target.declared.inj htarget
      obtain hfunction | ⟨-, hmethod⟩ := Option.or_eq_some_iff.mp found
      · exact Or.inl ⟨_, hfunction⟩
      · obtain ⟨className, hmethod⟩ := hmethodOf hmethod
        exact Or.inr ⟨className, _, hmethod⟩
    · exact absurd htarget Target.noConfusion

/-- A call that finds something declared finds an identifier of the tables. -/
theorem mem_ids_of_callTarget {names : Names} {scope name id : Text} {within : Option Text}
    {aliases : List (Text × Text)}
    (htarget : names.callTarget scope name within aliases = .declared id) : id ∈ names.ids := by
  obtain ⟨function, hfunction⟩ | ⟨className, method, hmethod⟩ := declared_of_callTarget htarget
  · exact mem_ids_of_function hfunction
  · exact mem_ids_of_method hmethod

theorem mem_of_least? {t : Text} {ts : List Text} (hleast : least? ts = some t) : t ∈ ts := by
  induction ts generalizing t with
  | nil => exact absurd hleast.symm (Option.some_ne_none t)
  | cons u us ih =>
      rw [least?] at hleast
      split at hleast
      · exact Option.some.inj hleast ▸ List.mem_cons_self
      · next v hv =>
        split at hleast
        · exact Option.some.inj hleast ▸ List.mem_cons_self
        · exact List.mem_cons_of_mem u (ih (hv.trans hleast))

/-- A base class that finds something declared finds a class. -/
theorem declared_of_baseTarget {names : Names} {scope base id : Text}
    (htarget : names.baseTarget scope base = .declared id) :
    id ∈ names.classes.map Prod.snd := by
  unfold baseTarget at htarget
  split at htarget
  · next found =>
    exact Target.declared.inj htarget ▸ mem_values_of_get? found
  · unfold baseAnywhere at htarget
    split at htarget
    · next found =>
      obtain ⟨entry, hentry, rfl⟩ := List.mem_map.mp (mem_of_least? found)
      refine Target.declared.inj htarget ▸ ?_
      exact List.mem_map_of_mem (List.mem_filter.mp hentry).1
    · exact absurd htarget Target.noConfusion

/-- A base class that finds something declared finds an identifier of the tables. -/
theorem mem_ids_of_baseTarget {names : Names} {scope base id : Text}
    (htarget : names.baseTarget scope base = .declared id) : id ∈ names.ids :=
  mem_ids_of_class (declared_of_baseTarget htarget)

end Names

end SymbolGraph
