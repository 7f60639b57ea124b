import SymbolGraph.Proofs.Draft.Node
import SymbolGraph.Record.Basic
set_option autoImplicit false

/-!
# Declared nodes stay as they were declared

A node is marked as external by its metadata. Placeholders are, and stay so when they are
merged; nodes of declarations are not, and noting aliases does not mark them. When the declared
nodes have distinct identifiers, and none that a placeholder has, declaring puts them in one
behind the other and linking changes nothing of them but the metadata of modules.
-/

namespace SymbolGraph

/-- The node without its metadata. -/
def Node.bare (n : Node) : Node := { n with metadata := [] }

/-- The node is marked as standing for something that no file declares. -/
def Node.isExternal (n : Node) : Bool := n.record.isExternal

/-! ## The mark of external nodes -/

/-- The key of the mark. -/
def externalKey : Points := Points.ofString "external"

theorem isExternal_eq (n : Node) :
    n.isExternal = ((Assoc.get? externalKey n.metadata).map Json.truthy).getD false := by
  rw [Node.isExternal, NodeRecord.isExternal, Node.record, Metadata.get?_ofFields]
  rfl

theorem isExternal_externalNode (kind : NodeKind) (name : Text) :
    (externalNode kind name).isExternal = true := by
  rw [isExternal_eq]
  rfl

/-- A node that is marked stays marked when another is merged into it. -/
theorem isExternal_merge {old : Node} (hold : old.isExternal = true) (new : Node) :
    (old.merge new).isExternal = true := by
  rw [isExternal_eq] at hold ⊢
  cases hget : Assoc.get? externalKey old.metadata with
  | none => simp [hget] at hold
  | some v =>
      rw [hget] at hold
      simp only [Node.merge, Assoc.get?_putAllNew, hget, Option.some_or]
      exact hold

/-- Noting aliases neither marks a node nor takes its mark away. -/
theorem isExternal_withAliases (n : Node) (aliases : List (Text × Text)) :
    ({ n with metadata := Draft.withAliases n.metadata aliases } : Node).isExternal =
      n.isExternal := by
  have hkey : Points.ofString "importAliases" ≠ externalKey := by decide
  rw [isExternal_eq, isExternal_eq]
  simp only [Draft.withAliases, Assoc.get?_put, if_neg hkey]

theorem get?_presentFields {key : Points} {fields : List (String × Option Json)}
    (hkey : ∀ field ∈ fields, Points.ofString field.1 ≠ key) :
    Assoc.get? key (presentFields fields) = none := by
  induction fields with
  | nil => rfl
  | cons field fields ih =>
      obtain ⟨k, v⟩ := field
      have hhead := hkey (k, v) List.mem_cons_self
      have htail := ih fun field hfield => hkey field (List.mem_cons_of_mem _ hfield)
      cases v with
      | none => exact htail
      | some v => exact (if_neg hhead).trans htail

/-- The metadata of a declaration say nothing of a mark. -/
theorem get?_externalKey_declared {o : Outline} {n : Node} (hn : n ∈ o.declaredNodes) :
    Assoc.get? externalKey n.metadata = none := by
  have hunmarked : ∀ {fields : List (String × Option Json)}, n.metadata = presentFields fields →
      (∀ field ∈ fields, Points.ofString field.1 ≠ externalKey) →
      Assoc.get? externalKey n.metadata = none := by
    intro fields hfields hkey
    rw [hfields, get?_presentFields hkey]
  simp only [Outline.declaredNodes, List.mem_cons, List.mem_append, List.mem_flatMap,
    List.mem_map] at hn
  obtain rfl | (⟨c, -, rfl | ⟨f, -, rfl⟩⟩ | ⟨f, -, rfl⟩) | ⟨v, -, rfl⟩ := hn <;>
    refine hunmarked rfl ?_ <;>
    simp only [List.forall_mem_cons, List.not_mem_nil, false_implies, implies_true,
      and_true] <;>
    decide

/-- The node of a declaration is not marked. -/
theorem isExternal_declared {o : Outline} {n : Node} (hn : n ∈ o.declaredNodes) :
    n.isExternal = false := by
  rw [isExternal_eq, get?_externalKey_declared hn]
  rfl

/-! ## Declaring puts the nodes in one behind the other -/

/-- A node with a new identifier is put in at the end. -/
theorem insertNode_of_not_mem {n : Node} {ns : List Node} (hnew : n.id ∉ ns.map Node.id) :
    insertNode n ns = ns ++ [n] := by
  induction ns with
  | nil => rfl
  | cons m ms ih =>
      rw [List.map_cons, List.mem_cons, not_or] at hnew
      rw [insertNode, if_neg (Ne.symm hnew.1), ih hnew.2, List.cons_append]

namespace Draft

/-- Changes that put in nodes with new identifiers, and note nothing, put them in at the end. -/
theorem nodes_replay_of_nodup {cs : List Change} {d : Draft}
    (hnote : ∀ c ∈ cs, ∀ o, c ≠ .note o)
    (hids : (d.ids ++ (cs.filterMap Change.node?).map Node.id).Nodup) :
    (d.replay cs).nodes = d.nodes ++ cs.filterMap Change.node? := by
  induction cs generalizing d with
  | nil => exact (List.append_nil _).symm
  | cons c cs ih =>
      have hlater : ∀ c ∈ cs, ∀ o, c ≠ .note o :=
        fun c hc => hnote c (List.mem_cons_of_mem _ hc)
      rw [replay_cons]
      cases c with
      | insert n =>
          have hnew : n.id ∉ d.ids := by
            intro hmem
            exact (List.nodup_append.mp hids).2.2 _ hmem _ List.mem_cons_self rfl
          have hnodes : (d.apply (.insert n)).nodes = d.nodes ++ [n] :=
            insertNode_of_not_mem hnew
          have hrest : ((d.apply (.insert n)).ids
              ++ (cs.filterMap Change.node?).map Node.id).Nodup := by
            simpa [ids, hnodes, Change.node?] using hids
          rw [ih hlater hrest, hnodes, List.append_assoc]
          rfl
      | note o => exact absurd rfl (hnote _ List.mem_cons_self o)
      | nameFunction scope name id => exact ih hlater hids
      | nameClass scope name id => exact ih hlater hids
      | nameMethod scope className name id => exact ih hlater hids
      | refer l => exact ih hlater hids

theorem ne_note_of_mem_declareChanges {o : Outline} {c : Change} (hc : c ∈ declareChanges o)
    (o' : Outline) : c ≠ .note o' := by
  rintro rfl
  simp [declareChanges, classChanges, methodChanges, functionChanges, variableChanges] at hc

/-- Declared nodes with distinct identifiers are the nodes after declaring. -/
theorem nodes_declareAll {os : List Outline}
    (hids : ((os.flatMap Outline.declaredNodes).map Node.id).Nodup) :
    (os.foldl declare {}).nodes = os.flatMap Outline.declaredNodes := by
  have hput : (os.flatMap declareChanges).filterMap Change.node? =
      os.flatMap Outline.declaredNodes := by
    simp only [List.filterMap_flatMap, nodes_declareChanges]
  have hnote : ∀ c ∈ os.flatMap declareChanges, ∀ o, c ≠ .note o := by
    intro c hc
    obtain ⟨o, -, hco⟩ := List.mem_flatMap.mp hc
    exact ne_note_of_mem_declareChanges hco
  rw [declareAll_eq_replay, nodes_replay_of_nodup hnote (hput ▸ hids), hput]
  rfl

end Draft

/-! ## Linking keeps them -/

/-- The nodes among some that are not marked, without their metadata. -/
def ownNodes (ns : List Node) : List Node := (ns.filter fun n => ! n.isExternal).map Node.bare

theorem ownNodes_cons (n : Node) (ns : List Node) :
    ownNodes (n :: ns) = if n.isExternal then ownNodes ns else n.bare :: ownNodes ns := by
  cases hn : n.isExternal <;> simp [ownNodes, hn]

/-- A marked node that has no identifier of the others changes nothing of them. -/
theorem ownNodes_insertNode {n : Node} (hn : n.isExternal = true) {ns : List Node}
    (hnew : n.id ∉ (ownNodes ns).map Node.id) : ownNodes (insertNode n ns) = ownNodes ns := by
  induction ns with
  | nil => rw [insertNode, ownNodes_cons, if_pos hn]
  | cons m ms ih =>
      rw [ownNodes_cons] at hnew
      cases hm : m.isExternal with
      | true =>
          -- a merge with a marked node stays marked, so it drops out on both sides
          rw [if_pos hm] at hnew
          by_cases hid : m.id = n.id
          · rw [insertNode, if_pos hid, ownNodes_cons, ownNodes_cons,
              if_pos (isExternal_merge hm n), if_pos hm]
          · rw [insertNode, if_neg hid, ownNodes_cons, ownNodes_cons, if_pos hm,
              if_pos hm, ih hnew]
      | false =>
          rw [if_neg (Bool.eq_false_iff.mp hm), List.map_cons, List.mem_cons, not_or] at hnew
          have hid : m.id ≠ n.id := Ne.symm hnew.1
          rw [insertNode, if_neg hid, ownNodes_cons, ownNodes_cons,
            if_neg (Bool.eq_false_iff.mp hm), if_neg (Bool.eq_false_iff.mp hm), ih hnew.2]

namespace Draft

theorem ownNodes_noteAliases (o : Outline) (d : Draft) :
    ownNodes (noteAliases o d).nodes = ownNodes d.nodes := by
  rw [noteAliases]
  generalize d.nodes = ns
  induction ns with
  | nil => rfl
  | cons n ns ih =>
      rw [List.map_cons, ownNodes_cons, ownNodes_cons, ih]
      split
      · rw [isExternal_withAliases]
        rfl
      · rfl

theorem exists_externalNode_of_mem_placeholders {names : Names} {o : Outline} {n : Node}
    (hn : n ∈ o.placeholders names) : ∃ kind name, n = externalNode kind name := by
  obtain himport | htarget := List.mem_append.mp hn
  · obtain ⟨name, -, rfl⟩ := List.mem_map.mp himport
    exact ⟨.module_, name, rfl⟩
  · obtain ⟨t, -, ht⟩ := List.mem_filterMap.mp htarget
    cases t with
    | declared id => exact absurd ht.symm (Option.some_ne_none n)
    | external kind name => exact ⟨kind, name, (Option.some.inj ht).symm⟩

/-- Linking puts in placeholders only. -/
theorem placeholder_of_mem_linkChanges {names : Names} {o : Outline} {n : Node}
    (hn : .insert n ∈ linkChanges names o) : ∃ kind name, n = externalNode kind name := by
  have hput : n ∈ o.placeholders names := by
    rw [← nodes_linkChanges]
    exact List.mem_filterMap.mpr ⟨_, hn, rfl⟩
  exact exists_externalNode_of_mem_placeholders hput

/-- Declared nodes with distinct identifiers, none of them a placeholder's, are the nodes of a
draft that are not marked, as they were declared but for the metadata. -/
theorem ownNodes_build {os : List Outline}
    (hids : ((os.flatMap Outline.declaredNodes).map Node.id).Nodup)
    (hout : ∀ n ∈ os.flatMap Outline.declaredNodes, ∀ kind name, n.id ≠ externalId kind name) :
    ownNodes (build os).nodes = (os.flatMap Outline.declaredNodes).map Node.bare := by
  rw [build_eq_replay, buildChanges, replay_append, ← declareAll_eq_replay]
  -- the invariant of the second pass; the first pass establishes it
  refine replay_induction
    (P := fun d => ownNodes d.nodes = (os.flatMap Outline.declaredNodes).map Node.bare) ?_ ?_
  · have hunmarked : (os.flatMap Outline.declaredNodes).filter (fun n => ! n.isExternal) =
        os.flatMap Outline.declaredNodes := by
      refine List.filter_eq_self.mpr ?_
      intro n hn
      obtain ⟨o, -, hno⟩ := List.mem_flatMap.mp hn
      rw [isExternal_declared hno]
      rfl
    rw [nodes_declareAll hids, ownNodes, hunmarked]
  · intro d c hc hd
    obtain ⟨o, -, hco⟩ := List.mem_flatMap.mp hc
    cases c with
    | insert n =>
        obtain ⟨kind, name, rfl⟩ := placeholder_of_mem_linkChanges hco
        refine (ownNodes_insertNode (isExternal_externalNode kind name) ?_).trans hd
        -- by the invariant, the identifiers to be avoided are those of the declared nodes
        rw [hd, List.map_map]
        intro hmem
        obtain ⟨n, hn, hid⟩ := List.mem_map.mp hmem
        exact hout n hn kind name hid
    | note o' => exact (ownNodes_noteAliases o' d).trans hd
    | nameFunction scope name id => exact hd
    | nameClass scope name id => exact hd
    | nameMethod scope className name id => exact hd
    | refer l => exact hd

end Draft

end SymbolGraph
