import SymbolGraph.Proofs.Draft.Lookup
import SymbolGraph.Proofs.Draft.Table
import SymbolGraph.Proofs.Graph.Declaration
import SymbolGraph.Proofs.Graph.Extension
set_option autoImplicit false

/-!
# The schema of a graph

A node of a graph stands for an entity that a file declares or for something outside, and which
of the two it is can be told in three ways: by its mark, by the line of its identifier and by
what it lacks. Nodes with one identifier are merged, but an identifier determines the kind and
the module, and no entity shares one with anything outside, so merging never turns one sort into
the other (`accounted_merge`). Which sorts and kinds of nodes an edge joins is then told by its
relation (`Relation.Joins`), also where several files have modules of one name.
-/

namespace SymbolGraph

open Draft

/-! ## Two sorts of nodes -/

/-- The key of the module's name in the metadata of what a module declares. -/
def scopeKey : Points := Points.ofString "module"

namespace Node

/-- The node is marked in its metadata as standing for something outside. -/
def Marked (n : Node) : Prop := Assoc.get? externalKey n.metadata = some (.bool true)

/-- The node stands for an entity: what the entity is called and the rest of the metadata may be
those of several declarations. -/
structure Declares (n : Node) (e : Entity) : Prop where
  id : n.id = e.id
  kind : n.kind = e.kind
  line : n.line = some e.line
  unmarked : Assoc.get? externalKey n.metadata = none
  scope : e.kind ≠ .module_ → Assoc.get? scopeKey n.metadata = some (.text e.scope)

/-- The node stands for something outside. -/
structure StandsFor (n : Node) (kind : NodeKind) (name : Text) : Prop where
  id : n.id = externalId kind name
  kind : n.kind = kind
  filePath : n.filePath = none
  line : n.line = none
  marked : n.Marked

/-- The node stands for what the outlines declare or for something outside. -/
def Accounted (os : List Outline) (n : Node) : Prop :=
  (∃ o ∈ os, ∃ e ∈ o.entities, n.Declares e) ∨ ∃ kind name, n.StandsFor kind name

end Node

theorem standsFor_externalNode (kind : NodeKind) (name : Text) :
    (externalNode kind name).StandsFor kind name :=
  ⟨rfl, rfl, rfl, rfl, rfl⟩

theorem get?_scopeKey_declared {o : Outline} {n : Node} (hn : n ∈ o.declaredNodes)
    (hkind : n.kind ≠ .module_) :
    Assoc.get? scopeKey n.metadata = some (.text o.moduleName) := by
  simp only [Outline.declaredNodes, List.mem_cons, List.mem_append, List.mem_flatMap,
    List.mem_map] at hn
  obtain rfl | (⟨c, -, rfl | ⟨f, -, rfl⟩⟩ | ⟨f, -, rfl⟩) | ⟨v, -, rfl⟩ := hn
  · exact absurd rfl hkind
  · rfl
  · rfl
  · rfl
  · rfl

/-- The node of a declaration stands for an entity of its outline. -/
theorem Outline.Named.exists_declares {o : Outline} (ho : o.Named) {n : Node}
    (hn : n ∈ o.declaredNodes) : ∃ e ∈ o.entities, n.Declares e := by
  obtain ⟨e, he, hbare⟩ := ho.exists_entity hn
  have hkind : n.kind = e.kind := (congrArg Node.kind hbare).symm
  refine ⟨e, he, (congrArg Node.id hbare).symm, hkind, (congrArg Node.line hbare).symm,
    get?_externalKey_declared hn, fun hmodule => ?_⟩
  rw [(ho.plain_entity he).1]
  exact get?_scopeKey_declared hn (hkind ▸ hmodule)

/-! ## What merging and noting keep -/

namespace Node

theorem Declares.merge {m n : Node} {e : Entity} (hm : m.Declares e)
    (hn : Assoc.get? externalKey n.metadata = none) : (m.merge n).Declares e where
  id := hm.id
  kind := hm.kind
  line := by simp [Node.merge, hm.line]
  unmarked := by simp [Node.merge, Assoc.get?_putAllNew, hm.unmarked, hn]
  scope hkind := by simp [Node.merge, Assoc.get?_putAllNew, hm.scope hkind]

theorem StandsFor.merge {m n : Node} {kind kind' : NodeKind} {name name' : Text}
    (hm : m.StandsFor kind name) (hn : n.StandsFor kind' name') :
    (m.merge n).StandsFor kind name where
  id := hm.id
  kind := hm.kind
  filePath := by simp [Node.merge, hm.filePath, hn.filePath]
  line := by simp [Node.merge, hm.line, hn.line]
  marked := by
    have hmarked : Assoc.get? externalKey m.metadata = some (.bool true) := hm.marked
    simp [Marked, Node.merge, Assoc.get?_putAllNew, hmarked]

theorem get?_noting (key : Points) (hkey : Points.ofString "importAliases" ≠ key) (n : Node)
    (aliases : List (Text × Text)) :
    Assoc.get? key (n.noting aliases).metadata = Assoc.get? key n.metadata := by
  simp only [noting, withAliases, Assoc.get?_put, if_neg hkey]

/-- Noting aliases leaves what a node stands for. -/
theorem Accounted.noting {os : List Outline} {n : Node} (hn : n.Accounted os)
    (aliases : List (Text × Text)) : (n.noting aliases).Accounted os := by
  have hmark := get?_noting externalKey (by decide) n aliases
  have hscope := get?_noting scopeKey (by decide) n aliases
  refine hn.imp ?_ ?_
  · rintro ⟨o, ho, e, he, hdeclares⟩
    exact ⟨o, ho, e, he, hdeclares.id, hdeclares.kind, hdeclares.line,
      hmark.trans hdeclares.unmarked, fun hkind => hscope.trans (hdeclares.scope hkind)⟩
  · rintro ⟨kind, name, hstands⟩
    exact ⟨kind, name, hstands.id, hstands.kind, hstands.filePath, hstands.line,
      hmark.trans hstands.marked⟩

end Node

theorem eq_or_merge_of_mem_insertNode {x n : Node} {ns : List Node} (hx : x ∈ insertNode n ns) :
    x ∈ ns ∨ x = n ∨ ∃ m ∈ ns, m.id = n.id ∧ x = m.merge n := by
  induction ns with
  | nil => exact Or.inr (Or.inl (List.mem_singleton.mp hx))
  | cons m ms ih =>
      rw [insertNode] at hx
      split at hx
      · next hid =>
        obtain rfl | hx := List.mem_cons.mp hx
        · exact Or.inr (Or.inr ⟨m, List.mem_cons_self, hid, rfl⟩)
        · exact Or.inl (List.mem_cons_of_mem m hx)
      · obtain rfl | hx := List.mem_cons.mp hx
        · exact Or.inl List.mem_cons_self
        · obtain hms | rfl | ⟨m', hm', hid, rfl⟩ := ih hx
          · exact Or.inl (List.mem_cons_of_mem m hms)
          · exact Or.inr (Or.inl rfl)
          · exact Or.inr (Or.inr ⟨m', List.mem_cons_of_mem m hm', hid, rfl⟩)

section

variable {os : List Outline} (hnamed : ∀ o ∈ os, o.Named)
include hnamed

/-- Nodes of one identifier are of one sort, and merged they are of that sort. -/
theorem accounted_merge {m n : Node} (hm : m.Accounted os) (hn : n.Accounted os)
    (hid : m.id = n.id) : (m.merge n).Accounted os := by
  obtain ⟨o, ho, e, he, hm⟩ | ⟨kind, name, hm⟩ := hm
  · obtain ⟨o', ho', e', he', hn⟩ | ⟨kind', name', hn⟩ := hn
    · exact Or.inl ⟨o, ho, e, he, hm.merge hn.unmarked⟩
    · refine absurd ?_ ((hnamed o ho).id_ne_externalId he kind' name')
      rw [← hm.id, hid, hn.id]
  · obtain ⟨o', ho', e', he', hn⟩ | ⟨kind', name', hn⟩ := hn
    · refine absurd ?_ ((hnamed o' ho').id_ne_externalId he' kind name)
      rw [← hn.id, ← hid, hm.id]
    · exact Or.inr ⟨kind, name, hm.merge hn⟩

/-- A change that puts in a node that is accounted for leaves all nodes so. -/
theorem accounted_apply {d : Draft} (hd : ∀ n ∈ d.nodes, n.Accounted os) {c : Change}
    (hc : ∀ n, c.node? = some n → n.Accounted os) :
    ∀ n ∈ (d.apply c).nodes, n.Accounted os := by
  cases c with
  | insert n =>
      intro x hx
      have hn := hc n rfl
      obtain hold | rfl | ⟨m, hm, hid, rfl⟩ := eq_or_merge_of_mem_insertNode hx
      · exact hd x hold
      · exact hn
      · exact accounted_merge hnamed (hd m hm) hn hid
  | note o =>
      intro x hx
      obtain ⟨n, hn, rfl⟩ := List.mem_map.mp hx
      split
      · exact (hd n hn).noting o.aliases
      · exact hd n hn
  | nameFunction scope name id => exact hd
  | nameClass scope name id => exact hd
  | nameMethod scope className name id => exact hd
  | refer l => exact hd

theorem accounted_mentioned {n : Node} (hn : n ∈ mentionedNodes os) : n.Accounted os := by
  obtain hdeclared | hplaceholder := List.mem_append.mp hn
  · obtain ⟨o, ho, hno⟩ := List.mem_flatMap.mp hdeclared
    obtain ⟨e, he, hdeclares⟩ := (hnamed o ho).exists_declares hno
    exact Or.inl ⟨o, ho, e, he, hdeclares⟩
  · obtain ⟨o, -, hno⟩ := List.mem_flatMap.mp hplaceholder
    obtain ⟨kind, name, rfl⟩ := exists_externalNode_of_mem_placeholders hno
    exact Or.inr ⟨kind, name, standsFor_externalNode kind name⟩

/-- Every node of a graph stands for something that is declared or for something outside. -/
theorem accounted_build : ∀ n ∈ (Graph.build os).nodes, n.Accounted os := by
  have hdraft : ∀ n ∈ (build os).nodes, n.Accounted os := by
    rw [build_eq_replay]
    refine replay_induction (P := fun d => ∀ n ∈ d.nodes, n.Accounted os) ?_ ?_
    · exact fun n hn => absurd hn List.not_mem_nil
    · intro d c hc hd
      refine accounted_apply hnamed hd fun n hn => accounted_mentioned hnamed ?_
      rw [← nodes_buildChanges]
      exact List.mem_filterMap.mpr ⟨c, hc, hn⟩
  exact fun n hn => hdraft n ((nodes_perm (build os)).mem_iff.mp hn)

/-- The node of an entity stands for it, whatever else was merged into it. -/
theorem exists_node_of_entity {o : Outline} (ho : o ∈ os) {e : Entity} (he : e ∈ o.entities) :
    ∃ n ∈ (Graph.build os).nodes, n.Declares e := by
  have hmentioned : e.id ∈ (mentionedNodes os).map Node.id := by
    refine mentioned_of_declared ho ?_
    rw [(hnamed o ho).ids_declaredNodes]
    exact List.mem_map_of_mem he
  obtain ⟨n, hn, hid⟩ := List.mem_map.mp ((mem_ids_graph e.id os).mpr hmentioned)
  refine ⟨n, hn, ?_⟩
  obtain ⟨o', ho', e', he', hdeclares⟩ | ⟨kind, name, hstands⟩ := accounted_build hnamed n hn
  · -- the node may be that of another declaration, but one of the same module, kind and line
    have heq : e'.id = e.id := hdeclares.id.symm.trans hid
    obtain ⟨hmodule, hkind, -, hline⟩ := (hnamed o' ho').eq_of_id_eq (hnamed o ho) he' he heq
    have hscope : e'.scope = e.scope := by
      rw [((hnamed o' ho').plain_entity he').1, ((hnamed o ho).plain_entity he).1, hmodule]
    refine ⟨hid, hdeclares.kind.trans hkind, hline ▸ hdeclares.line, hdeclares.unmarked, ?_⟩
    exact fun hmodule => hscope ▸ hdeclares.scope (hkind ▸ hmodule)
  · refine absurd ?_ ((hnamed o ho).id_ne_externalId he kind name)
    rw [← hid, hstands.id]

/-- The node of something outside stands for something of its kind. -/
theorem exists_node_of_placeholder {kind : NodeKind} {name : Text}
    (hmentioned : externalId kind name ∈ (mentionedNodes os).map Node.id) :
    ∃ n ∈ (Graph.build os).nodes, n.StandsFor kind name := by
  obtain ⟨n, hn, hid⟩ := List.mem_map.mp ((mem_ids_graph _ os).mpr hmentioned)
  refine ⟨n, hn, ?_⟩
  obtain ⟨o, ho, e, he, hdeclares⟩ | ⟨kind', name', hstands⟩ := accounted_build hnamed n hn
  · exact absurd (hdeclares.id.symm.trans hid) ((hnamed o ho).id_ne_externalId he kind name)
  · have hkind : kind' = kind := kind_eq_of_externalId_eq (hstands.id.symm.trans hid)
    exact ⟨hid, hstands.kind.trans hkind, hstands.filePath, hstands.line, hstands.marked⟩

/-! ## The mark, the identifier and what is missing -/

theorem marked_iff_zero_suffix {n : Node} (hn : n.Accounted os) :
    n.Marked ↔ ":0".toList <:+ n.id := by
  rcases hn with ⟨o, ho, e, he, hdeclares⟩ | ⟨kind, name, hstands⟩
  · have hline := ((hnamed o ho).plain_entity he).2.2
    rw [Node.Marked, hdeclares.unmarked, hdeclares.id, Entity.id, zero_suffix_nodeId_iff]
    exact iff_of_false (Option.some_ne_none _).symm (by omega)
  · refine iff_of_true hstands.marked ?_
    rw [hstands.id, externalId, zero_suffix_nodeId_iff]

omit hnamed in
theorem marked_iff_unplaced {n : Node} (hn : n.Accounted os) :
    n.Marked ↔ n.filePath = none ∧ n.line = none := by
  rcases hn with ⟨o, ho, e, he, hdeclares⟩ | ⟨kind, name, hstands⟩
  · rw [Node.Marked, hdeclares.unmarked, hdeclares.line]
    exact iff_of_false (Option.some_ne_none _).symm fun h => Option.some_ne_none _ h.2
  · exact iff_of_true hstands.marked ⟨hstands.filePath, hstands.line⟩

theorem marked_iff_not_declaredBy {n : Node} (hn : n.Accounted os) :
    n.Marked ↔ declaredBy os n.id = false := by
  rw [← Bool.not_eq_true, declaredBy_iff]
  rcases hn with ⟨o, ho, e, he, hdeclares⟩ | ⟨kind, name, hstands⟩
  · rw [Node.Marked, hdeclares.unmarked]
    exact iff_of_false (Option.some_ne_none _).symm fun h => h ⟨o, ho, e, he, hdeclares.id.symm⟩
  · refine iff_of_true hstands.marked ?_
    rintro ⟨o, ho, e, he, hid⟩
    exact (hnamed o ho).id_ne_externalId he kind name (hid.trans hstands.id)

end

/-! ## What an edge joins -/

namespace Node

/-- The node stands for something of a kind that is declared. -/
def IsDeclared (kind : NodeKind) (n : Node) : Prop := n.kind = kind ∧ ¬ n.Marked

/-- The node stands for something of a kind outside. -/
def IsOutside (kind : NodeKind) (n : Node) : Prop := n.kind = kind ∧ n.Marked

theorem Declares.isDeclared {n : Node} {e : Entity} (hn : n.Declares e) :
    n.IsDeclared e.kind := by
  refine ⟨hn.kind, ?_⟩
  rw [Marked, hn.unmarked]
  exact (Option.some_ne_none _).symm

theorem StandsFor.isOutside {n : Node} {kind : NodeKind} {name : Text}
    (hn : n.StandsFor kind name) : n.IsOutside kind :=
  ⟨hn.kind, hn.marked⟩

end Node

/-- The nodes that a relation joins, by their kinds and by whether they are declared. A call
stays within the modules of one name. -/
def Relation.Joins : Relation → Node → Node → Prop
  | .defines, a, b =>
    (a.IsDeclared .module_ ∧
      (b.IsDeclared .class_ ∨ b.IsDeclared .function ∨ b.IsDeclared .variable_))
      ∨ (a.IsDeclared .class_ ∧ b.IsDeclared .function)
  | .imports, a, b => a.IsDeclared .module_ ∧ b.IsOutside .module_
  | .calls, a, b => a.IsDeclared .function ∧ b.IsDeclared .function ∧
    ∃ scope, Assoc.get? scopeKey a.metadata = some scope ∧
      Assoc.get? scopeKey b.metadata = some scope
  | .inherits, a, b => (a.IsDeclared .class_ ∨ a.IsOutside .class_) ∧ b.IsDeclared .class_
  | .uses, a, b => a.IsDeclared .function ∧ b.IsOutside .function

/-- The link leads from a node of the graph to another, as its relation says. -/
def Link.Fits (l : Link) (g : Graph) : Prop :=
  ∃ a ∈ g.nodes, ∃ b ∈ g.nodes, a.id = l.source ∧ b.id = l.target ∧ l.relation.Joins a b

theorem Names.kind_of_callTarget {names : Names} {scope name other : Text}
    {within : Option Text} {aliases : List (Text × Text)} {kind : NodeKind}
    (htarget : names.callTarget scope name within aliases = .external kind other) :
    kind = .function := by
  unfold callTarget at htarget
  split at htarget
  · simp only [dottedTarget] at htarget
    split at htarget <;> split at htarget
    · exact absurd htarget Target.noConfusion
    · exact (Target.external.inj htarget).1.symm
    · exact absurd htarget Target.noConfusion
    · exact (Target.external.inj htarget).1.symm
  · simp only [bareTarget] at htarget
    split at htarget
    · exact absurd htarget Target.noConfusion
    · exact (Target.external.inj htarget).1.symm

theorem Names.kind_of_baseTarget {names : Names} {scope base other : Text} {kind : NodeKind}
    (htarget : names.baseTarget scope base = .external kind other) : kind = .class_ := by
  unfold baseTarget baseAnywhere at htarget
  split at htarget
  · exact absurd htarget Target.noConfusion
  · split at htarget
    · exact absurd htarget Target.noConfusion
    · exact (Target.external.inj htarget).1.symm

namespace Outline

theorem functionEntity_mem {o : Outline} {f : FunctionDecl} (hf : f ∈ o.functions) :
    o.functionEntity f ∈ o.entities := by
  simp only [entities, List.mem_cons, List.mem_append, List.mem_flatMap, List.mem_map]
  exact Or.inr (Or.inl (Or.inr ⟨f, hf, rfl⟩))

theorem methodEntity_mem {o : Outline} {c : ClassDecl} (hc : c ∈ o.classes) {f : FunctionDecl}
    (hf : f ∈ c.methods) : o.methodEntity c f ∈ o.entities := by
  simp only [entities, List.mem_cons, List.mem_append, List.mem_flatMap, List.mem_map]
  exact Or.inr (Or.inl (Or.inl ⟨c, hc, Or.inr ⟨f, hf, rfl⟩⟩))

theorem Named.id_methodEntity {o : Outline} (ho : o.Named) {c : ClassDecl} (hc : c ∈ o.classes)
    (f : FunctionDecl) : (o.methodEntity c f).id = (f.node o (some c.name)).id := by
  rw [FunctionDecl.node, ho.methodLabel hc]
  rfl

/-- A module declares classes, functions and variables, and a class declares functions. -/
theorem kinds_of_mem_parts {o : Outline} {p : Entity × Entity} (hp : p ∈ o.parts) :
    (p.1.kind = .module_ ∧
      (p.2.kind = .class_ ∨ p.2.kind = .function ∨ p.2.kind = .variable_)) ∨
      (p.1.kind = .class_ ∧ p.2.kind = .function) := by
  simp only [parts, List.mem_append, List.mem_flatMap, List.mem_cons, List.mem_map] at hp
  rcases hp with (⟨c, -, rfl | ⟨f, -, rfl⟩⟩ | ⟨f, -, rfl⟩) | ⟨v, -, rfl⟩
  · exact Or.inl ⟨rfl, Or.inl rfl⟩
  · exact Or.inr ⟨rfl, rfl⟩
  · exact Or.inl ⟨rfl, Or.inr (Or.inl rfl)⟩
  · exact Or.inl ⟨rfl, Or.inr (Or.inr rfl)⟩

theorem part_of_mem_parts {o : Outline} {p : Entity × Entity} (hp : p ∈ o.parts) :
    p.2 ∈ o.entities := by
  rw [entities_eq_cons]
  exact List.mem_cons_of_mem _ (List.mem_map_of_mem hp)

end Outline

section

variable {os : List Outline} (hnamed : ∀ o ∈ os, o.Named)
include hnamed

/-- A call that finds something declared finds a function of a module of the caller's name. -/
theorem exists_entity_of_callTarget {scope name id : Text} {within : Option Text}
    {aliases : List (Text × Text)}
    (htarget : (declaredNames os).callTarget scope name within aliases = .declared id) :
    ∃ o ∈ os, ∃ e ∈ o.entities, e.id = id ∧ e.kind = .function ∧ e.scope = scope := by
  have hnil : ∀ {κ : Type} [DecidableEq κ] {p : κ × Text} {pairs : List (κ × Text)},
      p ∈ Assoc.putAll [] pairs → p ∈ pairs :=
    fun hp => (Assoc.mem_putAll hp).resolve_left List.not_mem_nil
  rcases Names.declared_of_callTarget htarget with ⟨function, hget⟩ | ⟨className, method, hget⟩
  · rw [declaredNames_eq] at hget
    obtain ⟨o, ho, hentry⟩ := List.mem_flatMap.mp (hnil (Assoc.mem_of_get? hget))
    obtain ⟨f, hf, hkey⟩ := List.mem_map.mp hentry
    simp only [Prod.mk.injEq] at hkey
    exact ⟨o, ho, o.functionEntity f, Outline.functionEntity_mem hf, hkey.2, rfl, hkey.1.1⟩
  · rw [declaredNames_eq] at hget
    obtain ⟨o, ho, hentry⟩ := List.mem_flatMap.mp (hnil (Assoc.mem_of_get? hget))
    simp only [Outline.methodEntries, List.mem_flatMap, List.mem_map, Prod.mk.injEq] at hentry
    obtain ⟨c, hc, f, hf, ⟨hscope, -⟩, hid⟩ := hentry
    exact ⟨o, ho, o.methodEntity c f, Outline.methodEntity_mem hc hf,
      ((hnamed o ho).id_methodEntity hc f).trans hid, rfl, hscope⟩

omit hnamed in
theorem exists_entity_of_baseTarget {scope base id : Text}
    (htarget : (declaredNames os).baseTarget scope base = .declared id) :
    ∃ o ∈ os, ∃ e ∈ o.entities, e.id = id ∧ e.kind = .class_ := by
  obtain ⟨entry, hentry, rfl⟩ := List.mem_map.mp (Names.declared_of_baseTarget htarget)
  rw [declaredNames_eq] at hentry
  obtain hnil | hentry := Assoc.mem_putAll hentry
  · exact absurd hnil List.not_mem_nil
  · obtain ⟨o, ho, hentry⟩ := List.mem_flatMap.mp hentry
    obtain ⟨c, hc, rfl⟩ := List.mem_map.mp hentry
    exact ⟨o, ho, o.classEntity c, Outline.classEntity_mem hc, rfl, rfl⟩

theorem fits_of_mem_definitions {o : Outline} (ho : o ∈ os) {l : Link}
    (hl : l ∈ o.definitions) : l.Fits (Graph.build os) := by
  rw [(hnamed o ho).definitions_eq] at hl
  obtain ⟨p, hp, rfl⟩ := List.mem_map.mp hl
  obtain ⟨a, ha, hwhole⟩ := exists_node_of_entity hnamed ho (Outline.whole_of_mem_parts hp)
  obtain ⟨b, hb, hpart⟩ := exists_node_of_entity hnamed ho (Outline.part_of_mem_parts hp)
  refine ⟨a, ha, b, hb, hwhole.id, hpart.id, ?_⟩
  have hkinds := Outline.kinds_of_mem_parts hp
  rcases hkinds with ⟨hmodule, hclass | hfunction | hvariable⟩ | ⟨hclass, hfunction⟩
  · exact Or.inl ⟨hmodule ▸ hwhole.isDeclared, Or.inl (hclass ▸ hpart.isDeclared)⟩
  · exact Or.inl ⟨hmodule ▸ hwhole.isDeclared, Or.inr (Or.inl (hfunction ▸ hpart.isDeclared))⟩
  · exact Or.inl ⟨hmodule ▸ hwhole.isDeclared, Or.inr (Or.inr (hvariable ▸ hpart.isDeclared))⟩
  · exact Or.inr ⟨hclass ▸ hwhole.isDeclared, hfunction ▸ hpart.isDeclared⟩

theorem fits_of_mem_importLinks {o : Outline} (ho : o ∈ os) {l : Link}
    (hl : l ∈ o.importLinks) : l.Fits (Graph.build os) := by
  have hmentioned : l.target ∈ (mentionedNodes os).map Node.id := by
    refine mentioned_target_of_reference ?_
    simp only [references, List.mem_append, List.mem_flatMap]
    exact Or.inl (Or.inl (Or.inr ⟨o, ho, hl⟩))
  obtain ⟨name, -, rfl⟩ := List.mem_map.mp hl
  obtain ⟨a, ha, hmodule⟩ := exists_node_of_entity hnamed ho List.mem_cons_self
  obtain ⟨b, hb, himported⟩ := exists_node_of_placeholder hnamed hmentioned
  exact ⟨a, ha, b, hb, hmodule.id, himported.id, hmodule.isDeclared, himported.isOutside⟩

/-- A call from a function of the module leads to a function: to one of a module of the same
name if it was found among the declarations. -/
theorem fits_callLink {o : Outline} (ho : o ∈ os) {e : Entity} (he : e ∈ o.entities)
    (hkind : e.kind = .function) (within : Option Text) (c : CallSite)
    (hmentioned : (o.callLink (declaredNames os) e.id within c).target ∈
      (mentionedNodes os).map Node.id) :
    (o.callLink (declaredNames os) e.id within c).Fits (Graph.build os) := by
  obtain ⟨a, ha, hsource⟩ := exists_node_of_entity hnamed ho he
  have hcaller : a.IsDeclared .function := hkind ▸ hsource.isDeclared
  cases htarget : (declaredNames os).callTarget o.moduleName c.name within o.aliases with
  | declared id =>
      obtain ⟨o', ho', e', he', hid, hkind', hscope⟩ :=
        exists_entity_of_callTarget hnamed htarget
      obtain ⟨b, hb, hcalled⟩ := exists_node_of_entity hnamed ho' he'
      have hscopes : e.scope = e'.scope := ((hnamed o ho).plain_entity he).1.trans hscope.symm
      have hmodule : ∀ {k : NodeKind}, k = .function → k ≠ .module_ := by
        rintro _ rfl
        exact NodeKind.noConfusion
      rw [Outline.callLink, htarget]
      refine ⟨a, ha, b, hb, hsource.id, hcalled.id.trans hid, hcaller,
        hkind' ▸ hcalled.isDeclared, .text e.scope, hsource.scope (hmodule hkind), ?_⟩
      rw [hscopes]
      exact hcalled.scope (hmodule hkind')
  | external kind name =>
      obtain rfl := Names.kind_of_callTarget htarget
      rw [Outline.callLink, htarget] at hmentioned ⊢
      obtain ⟨b, hb, hused⟩ := exists_node_of_placeholder hnamed hmentioned
      exact ⟨a, ha, b, hb, hsource.id, hused.id, hcaller, hused.isOutside⟩

theorem fits_of_mem_callLinks {o : Outline} (ho : o ∈ os) {l : Link}
    (hl : l ∈ o.callLinks (declaredNames os)) : l.Fits (Graph.build os) := by
  have hmentioned : l.target ∈ (mentionedNodes os).map Node.id := by
    refine mentioned_target_of_reference ?_
    simp only [references, List.mem_append, List.mem_flatMap]
    exact Or.inl (Or.inr ⟨o, ho, hl⟩)
  simp only [Outline.callLinks, List.mem_append, List.mem_flatMap, List.mem_map] at hl
  rcases hl with ⟨f, hf, c, -, rfl⟩ | ⟨d, hd, f, hf, c, -, rfl⟩
  · exact fits_callLink hnamed ho (Outline.functionEntity_mem hf) rfl none c hmentioned
  · exact fits_callLink hnamed ho (Outline.methodEntity_mem hd hf) rfl (some d.name)
      c hmentioned

theorem fits_of_mem_baseLinks {o : Outline} (ho : o ∈ os) {l : Link}
    (hl : l ∈ o.baseLinks (declaredNames os)) : l.Fits (Graph.build os) := by
  have hmentioned : l.source ∈ (mentionedNodes os).map Node.id := by
    refine (mentioned_source_of_reference ?_).resolve_right ?_
    · simp only [references, List.mem_append, List.mem_flatMap]
      exact Or.inr ⟨o, ho, hl⟩
    · rintro ⟨o', ho', c, hc, hname, -⟩
      exact ((hnamed o' ho').className hc).ne_nil hname
  simp only [Outline.baseLinks, List.mem_flatMap, List.mem_map] at hl
  obtain ⟨c, hc, base, -, rfl⟩ := hl
  obtain ⟨b, hb, hderived⟩ := exists_node_of_entity hnamed ho (Outline.classEntity_mem hc)
  cases htarget : (declaredNames os).baseTarget o.moduleName base with
  | declared id =>
      obtain ⟨o', ho', e, he, hid, hkind⟩ := exists_entity_of_baseTarget htarget
      obtain ⟨a, ha, hbase⟩ := exists_node_of_entity hnamed ho' he
      exact ⟨a, ha, b, hb, hbase.id.trans hid, hderived.id, Or.inl (hkind ▸ hbase.isDeclared),
        hderived.isDeclared⟩
  | external kind name =>
      obtain rfl := Names.kind_of_baseTarget htarget
      rw [htarget] at hmentioned
      obtain ⟨a, ha, hbase⟩ := exists_node_of_placeholder hnamed hmentioned
      exact ⟨a, ha, b, hb, hbase.id, hderived.id, Or.inr hbase.isOutside, hderived.isDeclared⟩

/-- Every edge fits its graph. -/
theorem fits_of_mem_edges {e : Edge} (he : e ∈ (Graph.build os).edges) :
    e.link.Fits (Graph.build os) := by
  have hreference : e.link ∈ references os := (mem_references_iff os e.link).mpr ⟨e, he, rfl⟩
  simp only [references, List.mem_append, List.mem_flatMap] at hreference
  rcases hreference with ((⟨o, ho, hl⟩ | ⟨o, ho, hl⟩) | ⟨o, ho, hl⟩) | ⟨o, ho, hl⟩
  · exact fits_of_mem_definitions hnamed ho hl
  · exact fits_of_mem_importLinks hnamed ho hl
  · exact fits_of_mem_callLinks hnamed ho hl
  · exact fits_of_mem_baseLinks hnamed ho hl

end

/-- Take files whose modules have names without a colon, of which several may have one name.
They have outlines if all have contents and the length of snippets is an integer. If they have
outlines, no two nodes of their graph share an identifier; a node is marked exactly if its
identifier ends in `:0`, if it has neither a path nor a line, and if no file declares it; and
every edge joins two nodes of the kinds, declared or outside, that its relation asks for. -/
theorem graph_follows_schema (options : ReadingOptions) (files : List SourceFile)
    (hcolon : ∀ f ∈ files, ':' ∉ moduleNameOf f.name) :
    ((∀ f ∈ files, f.content.isSome) → options.snippetLength.integer?.isSome →
      ∃ os, outlines options files = .ok os) ∧
    ∀ os, outlines options files = .ok os →
      ((Graph.build os).nodes.map Node.id).Nodup ∧
      (∀ n ∈ (Graph.build os).nodes,
        (n.Marked ↔ ":0".toList <:+ n.id) ∧
        (n.Marked ↔ n.filePath = none ∧ n.line = none) ∧
        (n.Marked ↔ declaredBy os n.id = false)) ∧
      ∀ e ∈ (Graph.build os).edges, ∃ a ∈ (Graph.build os).nodes, ∃ b ∈ (Graph.build os).nodes,
        a.id = e.link.source ∧ b.id = e.link.target ∧ e.link.relation.Joins a b := by
  refine ⟨exists_outlines, fun os houtlines => ?_⟩
  have hnamed : ∀ o ∈ os, o.Named := fun o ho =>
    (regular_of_mem_outlines houtlines ho).named (plain_of_mem_outlines houtlines hcolon ho)
  refine ⟨?_, fun n hn => ?_, fun e he => fits_of_mem_edges hnamed he⟩
  · exact ((nodes_perm (build os)).map Node.id).nodup_iff.mpr (nodup_ids_build os)
  · have haccounted := accounted_build hnamed n hn
    exact ⟨marked_iff_zero_suffix hnamed haccounted, marked_iff_unplaced haccounted,
      marked_iff_not_declaredBy hnamed haccounted⟩

/-- Two files whose modules have one name, where the class of one calls the function of the
other. -/
def sameName : List SourceFile :=
  [{ name := "a/m.py".toList, content := some "class C(B):\n  def f(self):\n    g()".toList },
    { name := "b/m.py".toList, content := some "import os\ndef g():\n  os.exit()".toList }]

/-- A call that leads from one of two files with one name into the other joins two functions. -/
theorem graph_follows_schema_sameName :
    (∀ f ∈ sameName, ':' ∉ moduleNameOf f.name) ∧
    ∃ os, outlines ⟨true, .number 40⟩ sameName = .ok os ∧
      ∃ e ∈ (Graph.build os).edges,
        e.link = ⟨"m:function:C.f:2".toList, .calls, "m:function:g:2".toList⟩ ∧
        ∃ a ∈ (Graph.build os).nodes, ∃ b ∈ (Graph.build os).nodes,
          a.id = e.link.source ∧ b.id = e.link.target ∧ e.link.relation.Joins a b := by
  have hcolon : ∀ f ∈ sameName, ':' ∉ moduleNameOf f.name := by decide
  obtain ⟨hread, hschema⟩ := graph_follows_schema ⟨true, .number 40⟩ sameName hcolon
  obtain ⟨os, hos⟩ := hread (by decide) rfl
  -- sorting does not compute in the kernel, so the call is looked for among the references
  have hcall : (outlines ⟨true, .number 40⟩ sameName).toOption.all (fun os =>
      decide (⟨"m:function:C.f:2".toList, .calls, "m:function:g:2".toList⟩ ∈ references os)) =
        true := by
    decide +kernel
  rw [hos] at hcall
  obtain ⟨e, he, hlink⟩ := (mem_references_iff os _).mp (of_decide_eq_true hcall)
  exact ⟨hcolon, os, hos, e, he, hlink, (hschema os hos).2.2 e he⟩

end SymbolGraph
