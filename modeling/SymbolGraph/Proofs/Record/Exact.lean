import SymbolGraph.Proofs.Draft.Declared
import SymbolGraph.Proofs.Json.RoundTrip
set_option autoImplicit false

/-!
# Exact values

Values that are exact for a reader without limits: they have no doubles in them, and no object
has a key twice. Such are the metadata of every node of a graph that is built (`exact_build`),
since nodes are put in with them, and since merging nodes and noting aliases keeps them exact.
-/

namespace SymbolGraph

namespace Json

/-! ## Lists and objects -/

theorem exact_arr_iff {vs : List Json} : (arr vs).Exact {} ↔ ∀ v ∈ vs, v.Exact {} := by
  constructor
  · rintro (_ | _ | _ | _ | ⟨hinside, hitems⟩)
    cases hinside
    exact hitems
  · exact Exact.arr rfl

theorem exact_obj_iff {fs : Fields} :
    (obj fs).Exact {} ↔ (fs.map Prod.fst).Nodup ∧ ∀ f ∈ fs, f.2.Exact {} := by
  constructor
  · rintro (_ | _ | _ | _ | _ | ⟨hinside, hkeys, hfields⟩)
    cases hinside
    exact ⟨hkeys, hfields⟩
  · exact fun h => Exact.obj rfl h.1 h.2

theorem exact_empty : (obj []).Exact {} :=
  exact_obj_iff.mpr ⟨List.nodup_nil, List.forall_mem_nil _⟩

@[simp] theorem exact_null : null.Exact {} := .null _

@[simp] theorem exact_bool (b : Bool) : (bool b).Exact {} := .bool _ b

@[simp] theorem exact_int (n : Int) : (int n).Exact {} :=
  .int fun _ hmost => absurd hmost.symm (Option.some_ne_none _)

@[simp] theorem exact_str (s : Points) : (str s).Exact {} := .str _ s

@[simp] theorem exact_text (t : Text) : (text t).Exact {} := exact_str _

@[simp] theorem exact_ofString (s : String) : (ofString s).Exact {} := exact_text _

@[simp] theorem exact_ofText? (t : Option Text) : (ofText? t).Exact {} := by
  cases t with
  | none => exact exact_null
  | some t => exact exact_text t

@[simp] theorem exact_ofTexts (ts : List Text) : (ofTexts ts).Exact {} := by
  refine exact_arr_iff.mpr fun v hv => ?_
  obtain ⟨t, -, rfl⟩ := List.mem_map.mp hv
  exact exact_text t

/-! ## Members -/

section

variable {fs : Fields} (hfs : (obj fs).Exact {})
include hfs

theorem exact_get? {k : Points} {v : Json} (hget : Assoc.get? k fs = some v) : v.Exact {} := by
  obtain ⟨hkeys, hfields⟩ := exact_obj_iff.mp hfs
  exact hfields _ ((Assoc.get?_eq_some_iff hkeys).mp hget)

/-- One more member keeps an object exact if its key is new. -/
theorem exact_append {k : Points} (hk : k ∉ fs.map Prod.fst) {v : Json} (hv : v.Exact {}) :
    (obj (fs ++ [(k, v)])).Exact {} := by
  obtain ⟨hkeys, hfields⟩ := exact_obj_iff.mp hfs
  refine exact_obj_iff.mpr ⟨?_, ?_⟩
  · rw [List.map_append, List.map_singleton, ← List.concat_eq_append]
    exact hkeys.concat hk
  · intro f hf
    obtain hf | hf := List.mem_append.mp hf
    · exact hfields f hf
    · rw [List.mem_singleton.mp hf]
      exact hv

theorem exact_put (k : Points) {v : Json} (hv : v.Exact {}) :
    (obj (Assoc.put k v fs)).Exact {} := by
  by_cases hk : k ∈ fs.map Prod.fst
  · obtain ⟨hkeys, hfields⟩ := exact_obj_iff.mp hfs
    refine exact_obj_iff.mpr ⟨?_, ?_⟩
    · rwa [Assoc.keys_put_of_mem hk]
    · intro f hf
      obtain hf | hf := Assoc.mem_put hf
      · exact hfields f hf
      · rwa [hf]
  · rw [Assoc.put_of_not_mem hk]
    exact exact_append hfs hk hv

theorem exact_putAllNew {gs : Fields} (hgs : ∀ g ∈ gs, g.2.Exact {}) :
    (obj (Assoc.putAllNew fs gs)).Exact {} := by
  induction gs generalizing fs with
  | nil => exact hfs
  | cons g gs ih =>
      have hput : (obj (Assoc.putNew g.1 g.2 fs)).Exact {} := by
        rw [Assoc.putNew]
        split
        · exact hfs
        · next hnew =>
          exact exact_append hfs (fun hmem => hnew (Assoc.contains_iff.mpr hmem))
            (hgs g List.mem_cons_self)
      exact ih hput fun g' hg' => hgs g' (List.mem_cons_of_mem g hg')

end

end Json

open Json Draft

/-! ## Metadata of nodes -/

theorem nodup_ofString {ks : List String} (hks : ks.Nodup) :
    (ks.map Points.ofString).Nodup := by
  refine hks.map fun k l heq => ?_
  exact String.toList_inj.mp (Points.points_inj.mp heq)

theorem keys_presentFields (fields : List (String × Option Json)) :
    ((presentFields fields).map Prod.fst).Sublist
      ((fields.map Prod.fst).map Points.ofString) := by
  induction fields with
  | nil => exact List.Sublist.refl _
  | cons f fields ih =>
      obtain ⟨k, v⟩ := f
      cases v with
      | none => exact ih.cons _
      | some v => exact ih.cons_cons _

theorem exact_presentFields {fields : List (String × Option Json)}
    (hkeys : (fields.map Prod.fst).Nodup) (hvalues : ∀ f ∈ fields, ∀ v ∈ f.2, v.Exact {}) :
    (obj (presentFields fields)).Exact {} := by
  refine exact_obj_iff.mpr ⟨(nodup_ofString hkeys).sublist (keys_presentFields fields), ?_⟩
  intro f hf
  obtain ⟨⟨k, v⟩, hmem, hv⟩ := List.mem_filterMap.mp hf
  obtain ⟨v, rfl, rfl⟩ := Option.map_eq_some_iff.mp hv
  exact hvalues _ hmem v rfl

/-- What a declaration is described by: a text, a list of texts or a truth value. -/
inductive Json.IsDetail : Json → Prop
  | text (t : Text) : IsDetail (.text t)
  | texts (ts : List Text) : IsDetail (.ofTexts ts)
  | bool (b : Bool) : IsDetail (.bool b)

attribute [simp] Json.IsDetail.text Json.IsDetail.texts Json.IsDetail.bool

theorem Json.IsDetail.exact {v : Json} (hv : v.IsDetail) : v.Exact {} := by
  cases hv with
  | text t => exact exact_text t
  | texts ts => exact exact_ofTexts ts
  | bool b => exact exact_bool b

/-- What outlines declare and refer to is described by details under different keys. -/
theorem exists_details_of_mentioned {os : List Outline} {n : Node}
    (hn : n ∈ mentionedNodes os) :
    ∃ fields, n.metadata = presentFields fields ∧ (fields.map Prod.fst).Nodup ∧
      ∀ f ∈ fields, ∀ v ∈ f.2, v.IsDetail := by
  simp only [mentionedNodes, List.mem_append, List.mem_flatMap] at hn
  obtain ⟨o, -, hdeclared⟩ | ⟨o, -, hplaceholder⟩ := hn
  · simp only [Outline.declaredNodes, List.mem_cons, List.mem_append, List.mem_flatMap,
      List.mem_map] at hdeclared
    obtain rfl | (⟨c, -, rfl | ⟨f, -, rfl⟩⟩ | ⟨f, -, rfl⟩) | ⟨v, -, rfl⟩ := hdeclared <;>
      exact ⟨_, rfl, by simp, by simp [-Bool.exists_bool, -Bool.forall_bool]⟩
  · obtain ⟨kind, name, rfl⟩ := exists_externalNode_of_mem_placeholders hplaceholder
    exact ⟨[("external", some (.bool true))], rfl, by simp, by simp⟩

/-- What outlines declare and refer to has exact metadata. -/
theorem exact_mentioned {os : List Outline} {n : Node} (hn : n ∈ mentionedNodes os) :
    (obj n.metadata).Exact {} := by
  obtain ⟨fields, hmetadata, hkeys, hdetails⟩ := exists_details_of_mentioned hn
  rw [hmetadata]
  exact exact_presentFields hkeys fun f hf v hv => (hdetails f hf v hv).exact

/-- The names that imports bind are noted as an object. -/
theorem exact_withAliases {metadata : Fields} (hmetadata : (obj metadata).Exact {})
    (aliases : List (Text × Text)) : (obj (withAliases metadata aliases)).Exact {} := by
  have hnoted : (obj (notedAliases metadata)).Exact {} := by
    rw [notedAliases]
    split
    · next hget => exact exact_get? hmetadata hget
    · exact exact_empty
  refine exact_put hmetadata _ (exact_putAllNew hnoted ?_)
  intro f hf
  obtain ⟨a, -, rfl⟩ := List.mem_map.mp hf
  exact exact_text _

/-! ## Metadata of a draft -/

namespace Draft

section

variable {P : Fields → Prop} (hmerge : ∀ fs gs, P fs → P gs → P (Assoc.putAllNew fs gs))
include hmerge

theorem forall_metadata_insertNode {n : Node} (hn : P n.metadata) {ns : List Node}
    (hns : ∀ m ∈ ns, P m.metadata) : ∀ m ∈ insertNode n ns, P m.metadata := by
  induction ns with
  | nil => exact List.forall_mem_singleton.mpr hn
  | cons m ms ih =>
      obtain ⟨hm, hms⟩ := List.forall_mem_cons.mp hns
      rw [insertNode]
      split
      · exact List.forall_mem_cons.mpr ⟨hmerge _ _ hm hn, hms⟩
      · exact List.forall_mem_cons.mpr ⟨hm, ih hms⟩

variable (haliases : ∀ fs aliases, P fs → P (withAliases fs aliases))
include haliases

theorem forall_metadata_apply {d : Draft} (hd : ∀ n ∈ d.nodes, P n.metadata) {c : Change}
    (hc : ∀ n, c.node? = some n → P n.metadata) : ∀ n ∈ (d.apply c).nodes, P n.metadata := by
  cases c with
  | insert n => exact forall_metadata_insertNode hmerge (hc n rfl) hd
  | note o =>
      intro m hm
      obtain ⟨n, hn, rfl⟩ := List.mem_map.mp hm
      split
      · exact haliases _ _ (hd n hn)
      · exact hd n hn
  | nameFunction scope name id => exact hd
  | nameClass scope name id => exact hd
  | nameMethod scope className name id => exact hd
  | refer l => exact hd

/-- What holds of the metadata of all that outlines declare and refer to holds of the metadata
of all nodes, if merging metadata and noting aliases keep it. -/
theorem forall_metadata_build {os : List Outline}
    (hmentioned : ∀ n ∈ mentionedNodes os, P n.metadata) :
    ∀ n ∈ (Graph.build os).nodes, P n.metadata := by
  have hnodes : ∀ n ∈ (build os).nodes, P n.metadata := by
    rw [build_eq_replay]
    refine replay_induction (P := fun d => ∀ n ∈ d.nodes, P n.metadata)
      (List.forall_mem_nil _) ?_
    intro d c hc hd
    refine forall_metadata_apply hmerge haliases hd fun n hn => hmentioned n ?_
    rw [← nodes_buildChanges]
    exact List.mem_filterMap.mpr ⟨c, hc, hn⟩
  exact fun n hn => hnodes n ((nodes_perm (build os)).mem_iff.mp hn)

end

end Draft

/-- The nodes of a graph have exact metadata. -/
theorem exact_build {os : List Outline} {n : Node} (hn : n ∈ (Graph.build os).nodes) :
    (obj n.metadata).Exact {} := by
  refine forall_metadata_build (P := fun fs => (obj fs).Exact {}) ?_ ?_ ?_ n hn
  · exact fun fs gs hfs hgs => exact_putAllNew hfs (exact_obj_iff.mp hgs).2
  · exact fun fs aliases hfs => exact_withAliases hfs aliases
  · exact fun m hm => exact_mentioned hm

end SymbolGraph
