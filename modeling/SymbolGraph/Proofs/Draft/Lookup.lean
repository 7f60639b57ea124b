import Mathlib.Data.List.Nodup
import SymbolGraph.Proofs.Draft.Declared
set_option autoImplicit false

/-!
# The node with an identifier

What becomes of the node with an identifier is told by the nodes put in under it and by the
outlines noted on it, in their order; references, tables and all other nodes do not come into
it. So what some outlines declare under an identifier is all merged into one node, on which the
aliases of the module are noted if it is a module's (`node?_build_declared`). What no outline
declares is all its placeholders, merged (`node?_build_outside`).
-/

namespace SymbolGraph

/-- What becomes of a node, if it is there, when another is put in under its identifier. -/
def mergeInto (old : Option Node) (new : Node) : Option Node :=
  some (old.elim new fun old => old.merge new)

/-- One node made of several with one identifier. -/
def mergeAll (ns : List Node) : Option Node := ns.foldl mergeInto none

/-- The node with the names noted on it that imports bind. -/
def Node.noting (n : Node) (aliases : List (Text × Text)) : Node :=
  { n with metadata := Draft.withAliases n.metadata aliases }

/-- What becomes of a node, if it is there, when the names are noted on it that several modules
bind. -/
def noteAll (n : Option Node) (bound : List (List (Text × Text))) : Option Node :=
  bound.foldl (fun n aliases => n.map fun n => n.noting aliases) n

/-- What placeholders are merged into is marked as they are. -/
theorem isExternal_mergeAll {ns : List Node} (hns : ∀ n ∈ ns, n.isExternal = true) {n : Node}
    (hn : mergeAll ns = some n) : n.isExternal = true := by
  have hrun : ∀ (ns : List Node) (start : Option Node), (∀ n ∈ ns, n.isExternal = true) →
      (∀ n ∈ start, n.isExternal = true) →
        ∀ n ∈ ns.foldl mergeInto start, n.isExternal = true := by
    intro ns
    induction ns with
    | nil => exact fun start _ hstart => hstart
    | cons m ns ih =>
        intro start hns hstart
        refine ih _ (fun n hn => hns n (List.mem_cons_of_mem m hn)) ?_
        intro n hn
        cases start with
        | none => exact Option.some.inj hn ▸ hns m List.mem_cons_self
        | some old => exact Option.some.inj hn ▸ isExternal_merge (hstart old rfl) m
  exact hrun ns none hns (fun n hn => absurd hn.symm (Option.some_ne_none n)) n hn

/-- The outline that a change notes. -/
def Change.noted? : Change → Option Outline
  | note o => some o
  | _ => none

namespace Draft

/-! ## One change -/

theorem node?_insert (id : Text) (d : Draft) (n : Node) :
    (d.insert n).node? id = if n.id = id then mergeInto (d.node? id) n else d.node? id := by
  rw [Draft.insert, node?, node?]
  generalize d.nodes = ns
  induction ns with
  | nil => by_cases hn : n.id = id <;> simp [insertNode, mergeInto, hn]
  | cons m ms ih =>
      by_cases hm : m.id = n.id
      · by_cases hn : n.id = id
        · simp [insertNode, hm, hn, mergeInto]
        · simp [insertNode, hm, hn]
      · by_cases hmid : m.id = id
        · have hn : n.id ≠ id := fun h => hm (hmid.trans h.symm)
          simp [insertNode, hmid, hn, Ne.symm hn]
        · simp [insertNode, hm, hmid, ih]

theorem node?_noteAliases (id : Text) (d : Draft) (o : Outline) :
    (noteAliases o d).node? id =
      if moduleId o.moduleName =
        id then (d.node? id).map (·.noting o.aliases) else d.node? id := by
  rw [noteAliases, node?, node?]
  generalize d.nodes = ns
  induction ns with
  | nil => simp
  | cons n ns ih =>
      by_cases hn : n.id = id
      · by_cases ho : moduleId o.moduleName = id
        · simp [hn, ho, Node.noting]
        · simp [hn, ho, Ne.symm ho]
      · by_cases hno : n.id = moduleId o.moduleName
        · simp [hno ▸ hn, hno, ih]
        · simp [hn, hno, ih]

/-! ## A replay -/

/-- Where nothing is noted under an identifier, the nodes put in under it are merged. -/
theorem node?_replay_of_not_noted {id : Text} {cs : List Change}
    (hnoted : ∀ o ∈ cs.filterMap Change.noted?, moduleId o.moduleName ≠ id) (d : Draft) :
    (d.replay cs).node? id =
      ((cs.filterMap Change.node?).filter (·.id = id)).foldl mergeInto (d.node? id) := by
  induction cs generalizing d with
  | nil => rfl
  | cons c cs ih =>
      rw [replay_cons]
      cases c with
      | insert n =>
          rw [ih hnoted, apply, node?_insert]
          by_cases hn : n.id = id <;> simp [Change.node?, hn]
      | note o =>
          have hlater : ∀ o ∈ cs.filterMap Change.noted?, moduleId o.moduleName ≠ id :=
            fun o' ho' => hnoted o' (List.mem_cons_of_mem o ho')
          rw [ih hlater, apply, node?_noteAliases, if_neg (hnoted o List.mem_cons_self)]
          rfl
      | nameFunction scope name id' => exact ih hnoted _
      | nameClass scope name id' => exact ih hnoted _
      | nameMethod scope className name id' => exact ih hnoted _
      | refer l => exact ih hnoted _

/-- Where nothing is put in under an identifier, the outlines of the modules with it are
noted. -/
theorem node?_replay_of_not_inserted {id : Text} {cs : List Change}
    (hinserted : ∀ n ∈ cs.filterMap Change.node?, n.id ≠ id) (d : Draft) :
    (d.replay cs).node? id = noteAll (d.node? id)
      (((cs.filterMap Change.noted?).filter fun o => moduleId o.moduleName = id).map
        Outline.aliases) := by
  induction cs generalizing d with
  | nil => rfl
  | cons c cs ih =>
      rw [replay_cons]
      cases c with
      | insert n =>
          have hlater : ∀ n ∈ cs.filterMap Change.node?, n.id ≠ id :=
            fun n' hn' => hinserted n' (List.mem_cons_of_mem n hn')
          rw [ih hlater, apply, node?_insert, if_neg (hinserted n List.mem_cons_self)]
          rfl
      | note o =>
          rw [ih hinserted, apply, node?_noteAliases]
          by_cases ho : moduleId o.moduleName = id <;> simp [Change.noted?, ho, noteAll]
      | nameFunction scope name id' => exact ih hinserted _
      | nameClass scope name id' => exact ih hinserted _
      | nameMethod scope className name id' => exact ih hinserted _
      | refer l => exact ih hinserted _

/-! ## Building -/

theorem noted_declareChanges (o : Outline) :
    (declareChanges o).filterMap Change.noted? = [] := by
  refine List.filterMap_eq_nil_iff.mpr fun c hc => ?_
  cases c with
  | note o' => exact absurd rfl (ne_note_of_mem_declareChanges hc o')
  | _ => rfl

theorem noted_linkChanges (names : Names) (o : Outline) :
    (linkChanges names o).filterMap Change.noted? = [o] := by
  have htarget : ∀ t, (targetChanges t).filterMap Change.noted? = [] := by
    intro t
    cases t <;> rfl
  have hnone : ∀ {β γ : Type} (bs : List β), (bs.flatMap fun _ => ([] : List γ)) = [] := by
    intro β γ bs
    exact List.flatMap_eq_nil_iff.mpr fun _ _ => rfl
  simp [linkChanges, importChanges, functionCallChanges, methodCallChanges, callChanges,
    baseChanges, Change.noted?, List.filterMap_cons, List.filterMap_flatMap, htarget, hnone]

theorem node?_declareAll (os : List Outline) (id : Text) :
    (os.foldl declare {}).node? id =
      mergeAll ((os.flatMap Outline.declaredNodes).filter (·.id = id)) := by
  have hnoted : (os.flatMap declareChanges).filterMap Change.noted? = [] := by
    rw [List.filterMap_flatMap, List.flatMap_eq_nil_iff]
    exact fun o _ => noted_declareChanges o
  rw [declareAll_eq_replay, node?_replay_of_not_noted (by simp [hnoted])]
  simp only [List.filterMap_flatMap, nodes_declareChanges]
  rfl

/-- What is declared under an identifier that no placeholder has is merged into one node, and
the outlines of the modules that have it are noted on it. -/
theorem node?_build_declared {id : Text} (hid : ∀ kind name, id ≠ externalId kind name)
    (os : List Outline) :
    (build os).node? id =
      noteAll (mergeAll ((os.flatMap Outline.declaredNodes).filter (·.id = id)))
        ((os.filter fun o => moduleId o.moduleName = id).map Outline.aliases) := by
  have hnoted : (os.flatMap (linkChanges (declaredNames os))).filterMap Change.noted? = os := by
    simp [List.filterMap_flatMap, noted_linkChanges]
  have hinserted : ∀ n ∈ (os.flatMap (linkChanges (declaredNames os))).filterMap Change.node?,
      n.id ≠ id := by
    intro n hn
    obtain ⟨c, hc, hcn⟩ := List.mem_filterMap.mp hn
    obtain ⟨o, -, hco⟩ := List.mem_flatMap.mp hc
    cases c with
    | insert m =>
        obtain ⟨kind, name, rfl⟩ := placeholder_of_mem_linkChanges hco
        obtain rfl := Option.some.inj hcn
        exact Ne.symm (hid kind name)
    | _ => exact absurd hcn.symm (Option.some_ne_none n)
  rw [build_eq_replay, buildChanges, replay_append, ← declareAll_eq_replay,
    node?_replay_of_not_inserted hinserted, node?_declareAll, hnoted]

/-- What is not declared is made of its placeholders. -/
theorem node?_build_outside {id : Text} {os : List Outline}
    (hid : id ∉ (os.flatMap Outline.declaredNodes).map Node.id) :
    (build os).node? id =
      mergeAll ((os.flatMap (Outline.placeholders (declaredNames os))).filter (·.id = id)) := by
  have hnoted : ∀ o ∈ (buildChanges os).filterMap Change.noted?,
      moduleId o.moduleName ≠ id := by
    simp only [buildChanges, List.filterMap_append, List.filterMap_flatMap,
      noted_declareChanges, noted_linkChanges]
    rintro o ho rfl
    have ho : o ∈ os := by simpa using ho
    refine hid (List.mem_map.mpr ⟨o.node, ?_, rfl⟩)
    exact List.mem_flatMap.mpr ⟨o, ho, List.mem_cons_self⟩
  have hdeclared : (os.flatMap Outline.declaredNodes).filter (·.id = id) = [] := by
    refine List.filter_eq_nil_iff.mpr fun n hn heq => ?_
    exact hid (List.mem_map.mpr ⟨n, hn, of_decide_eq_true heq⟩)
  rw [build_eq_replay, node?_replay_of_not_noted hnoted, nodes_buildChanges, mentionedNodes,
    List.filter_append, hdeclared]
  rfl

/-- A node that is not marked is that of something declared. -/
theorem declared_of_unmarked {os : List Outline} {n : Node}
    (hn : (build os).node? n.id = some n) (hunmarked : n.isExternal = false) :
    n.id ∈ (os.flatMap Outline.declaredNodes).map Node.id := by
  refine Decidable.byContradiction fun houtside => ?_
  rw [node?_build_outside houtside] at hn
  have hmarked : n.isExternal = true := by
    refine isExternal_mergeAll (fun m hm => ?_) hn
    obtain ⟨o, -, hmo⟩ := List.mem_flatMap.mp (List.mem_filter.mp hm).1
    obtain ⟨kind, name, rfl⟩ := exists_externalNode_of_mem_placeholders hmo
    exact isExternal_externalNode kind name
  exact Bool.false_ne_true (hunmarked.symm.trans hmarked)

/-- A draft's graph has the nodes that looking up their identifiers gives. -/
theorem mem_nodes_iff (os : List Outline) (n : Node) :
    n ∈ (Graph.build os).nodes ↔ (build os).node? n.id = some n := by
  rw [Graph.build, (nodes_perm (build os)).mem_iff, node?]
  constructor
  · intro hn
    have hfound : ((build os).nodes.find? (·.id = n.id)).isSome := by
      rw [List.find?_isSome]
      exact ⟨n, hn, decide_eq_true rfl⟩
    obtain ⟨m, hm⟩ := Option.isSome_iff_exists.mp hfound
    have hid : decide (m.id = n.id) = true :=
      List.find?_some (p := fun m : Node => decide (m.id = n.id)) hm
    have heq := List.inj_on_of_nodup_map (nodup_ids_build os) (List.mem_of_find?_eq_some hm) hn
      (of_decide_eq_true hid)
    rw [hm, heq]
  · exact List.mem_of_find?_eq_some

end Draft

end SymbolGraph
