import SymbolGraph.Proofs.Record.Exact
import SymbolGraph.Proofs.Record.Order
import SymbolGraph.Record.Read
set_option autoImplicit false

/-!
# Graphs are read back from what they are written as

A graph that is in order and made of exact values is written as it is, and is read back as it
was (`GraphRecord.IsExact.ofJson_toJson`). What reading fills in, missing identifiers and the
weight of an edge without metadata, is not missing there, and what it sorts is sorted. Such are
the graphs of outlines, and such are graphs once they are read, even if they were written in
another order or with parts missing.
-/

namespace SymbolGraph

open Json

/-- The metadata are those of an exact object. -/
def Metadata.IsExact (m : Metadata) : Prop := ∃ fs, m = Metadata.ofFields fs ∧ (obj fs).Exact {}

/-- The parts of a node are exact. -/
structure NodeRecord.IsExact (n : NodeRecord) : Prop where
  id : n.id.Exact {}
  label : n.label.Exact {}
  filePath : n.filePath.Exact {}
  line : n.line.Exact {}
  metadata : n.metadata.IsExact

/-- The parts of an edge are exact, and it has metadata. -/
structure EdgeRecord.IsExact (e : EdgeRecord) : Prop where
  id : e.id.Exact {}
  source : e.source.Exact {}
  target : e.target.Exact {}
  metadata : e.metadata.IsExact
  hasMetadata : e.metadata ≠ []

/-- A graph is in order and made of exact parts. -/
structure GraphRecord.IsExact (g : GraphRecord) : Prop where
  inOrder : g.InOrder
  nodes : ∀ n ∈ g.nodes, n.IsExact
  edges : ∀ e ∈ g.edges, e.IsExact

/-! ## Writing -/

theorem exact_ofFields {fields : List (String × Json)} (hkeys : (fields.map Prod.fst).Nodup)
    (hvalues : ∀ f ∈ fields, f.2.Exact {}) : (Json.ofFields fields).Exact {} := by
  refine exact_obj_iff.mpr ⟨?_, ?_⟩
  · have hnodup := nodup_ofString hkeys
    rwa [List.map_map] at hnodup ⊢
  · intro f hf
    obtain ⟨f, hmem, rfl⟩ := List.mem_map.mp hf
    exact hvalues f hmem

theorem Metadata.IsExact.fields {m : Metadata} (hm : m.IsExact) : (obj m.fields).Exact {} := by
  obtain ⟨fs, rfl, hfs⟩ := hm
  rwa [Metadata.fields_ofFields]

theorem NodeRecord.IsExact.toJson {n : NodeRecord} (hn : n.IsExact) : n.toJson.Exact {} :=
  exact_ofFields (by simp) (by simp [hn.id, hn.label, hn.filePath, hn.line, hn.metadata.fields])

theorem EdgeRecord.IsExact.toJson {e : EdgeRecord} (he : e.IsExact) : e.toJson.Exact {} :=
  exact_ofFields (by simp) (by simp [he.id, he.source, he.target, he.metadata.fields])

theorem GraphRecord.IsExact.toJson {g : GraphRecord} (hg : g.IsExact) : g.toJson.Exact {} := by
  have hnodes : (arr (g.nodes.map NodeRecord.toJson)).Exact {} := by
    refine exact_arr_iff.mpr (List.forall_mem_map.mpr ?_)
    exact fun n hn => (hg.nodes n hn).toJson
  have hedges : (arr (g.edges.map EdgeRecord.toJson)).Exact {} := by
    refine exact_arr_iff.mpr (List.forall_mem_map.mpr ?_)
    exact fun e he => (hg.edges e he).toJson
  exact exact_ofFields (by simp) (by simp [hnodes, hedges])

/-! ## Reading back -/

/-- Metadata are read back unless reading puts others in the place of none. -/
theorem Metadata.IsExact.membersOr_fields {m : Metadata} (hm : m.IsExact) {default : Metadata}
    (hdefault : m = [] → default = []) : membersOr (.obj m.fields) default = .ok m := by
  obtain ⟨fs, rfl, -⟩ := hm
  rw [Metadata.fields_ofFields]
  cases fs with
  | nil => exact congrArg Except.ok (hdefault rfl)
  | cons f fs => rfl

theorem NodeKind.ofJson_word (k : NodeKind) : NodeKind.ofJson (.text k.word) = .ok k := by
  rw [NodeKind.ofJson, Json.text?_text, Option.bind_some, NodeKind.ofWord?_word]
  rfl

theorem Relation.ofJson_word (r : Relation) : Relation.ofJson (.text r.word) = .ok r := by
  rw [Relation.ofJson, Json.text?_text, Option.bind_some, Relation.ofWord?_word]
  rfl

theorem NodeRecord.IsExact.ofJson_toJson {n : NodeRecord} (hn : n.IsExact) :
    NodeRecord.ofJson n.toJson = .ok n := by
  have hkind : member n.toJson "type" = .ok (.text n.kind.word) := rfl
  have hmetadata : memberOr n.toJson "metadata" .null = .ok (.obj n.metadata.fields) := rfl
  have hmembers : membersOr (.obj n.metadata.fields) [] = .ok n.metadata :=
    hn.metadata.membersOr_fields fun _ => rfl
  simp only [NodeRecord.ofJson, hkind, NodeKind.ofJson_word, hmetadata, hmembers, bind,
    Except.bind]
  rfl

theorem EdgeRecord.IsExact.ofJson_toJson {e : EdgeRecord} (he : e.IsExact)
    (default : Metadata) : EdgeRecord.ofJson default e.toJson = .ok e := by
  have hrelation : member e.toJson "relation" = .ok (.text e.relation.word) := rfl
  have hmetadata : memberOr e.toJson "metadata" .null = .ok (.obj e.metadata.fields) := rfl
  have hmembers : membersOr (.obj e.metadata.fields) default = .ok e.metadata :=
    he.metadata.membersOr_fields fun hnone => absurd hnone he.hasMetadata
  simp only [EdgeRecord.ofJson, hrelation, Relation.ofJson_word, hmetadata, hmembers, bind,
    Except.bind]
  rfl

theorem readAll_map {α : Type} {read : Json → Except RecordFault α} {written : α → Json}
    {as : List α} (hread : ∀ a ∈ as, read (written a) = .ok a) :
    readAll read (as.map written) = .ok as := by
  induction as with
  | nil => rfl
  | cons a as ih =>
      have hrest := ih fun b hb => hread b (List.mem_cons_of_mem a hb)
      rw [List.map_cons, readAll, hread a List.mem_cons_self, hrest]
      rfl

/-- A graph in order and of exact parts is read back from its JSON. -/
theorem GraphRecord.IsExact.ofJson_toJson {g : GraphRecord} (hg : g.IsExact) :
    GraphRecord.ofJson g.toJson = .ok g := by
  have hnodes : memberOr g.toJson "nodes" (.arr []) =
      .ok (.arr (g.nodes.map NodeRecord.toJson)) :=
    rfl
  have hedges : memberOr g.toJson "edges" (.arr []) =
      .ok (.arr (g.edges.map EdgeRecord.toJson)) :=
    rfl
  have hreadNodes := readAll_map fun n hn => (hg.nodes n hn).ofJson_toJson
  have hreadEdges := readAll_map fun e he => (hg.edges e he).ofJson_toJson (Metadata.ofWeight 1)
  simp only [GraphRecord.ofJson, hnodes, hedges, readItemsOf, items?, hreadNodes,
    hreadEdges, bind, Except.bind]
  exact ordered_of_inOrder hg.inOrder

/-! ## Graphs of outlines -/

theorem Node.isExact_record {n : Node} (hn : (obj n.metadata).Exact {}) : n.record.IsExact where
  id := exact_text n.id
  label := exact_text n.label
  filePath := exact_ofText? n.filePath
  line := by
    rw [Node.record]
    cases n.line <;> simp
  metadata := ⟨n.metadata, rfl, hn⟩

theorem isExact_ofWeight (n : Nat) : (Metadata.ofWeight n).IsExact := by
  refine ⟨[(Points.ofString "weight", .int n)], rfl, ?_⟩
  exact exact_obj_iff.mpr ⟨List.nodup_singleton _, by simp⟩

theorem Edge.isExact_record (e : Edge) : e.record.IsExact where
  id := exact_text e.id
  source := exact_text e.link.source
  target := exact_text e.link.target
  metadata := isExact_ofWeight e.weight
  hasMetadata := List.cons_ne_nil _ _

theorem isExact_build (os : List Outline) : (Graph.build os).record.IsExact where
  inOrder := inOrder_build os
  nodes := List.forall_mem_map.mpr fun _ hn => Node.isExact_record (exact_build hn)
  edges := List.forall_mem_map.mpr fun e _ => e.isExact_record

/-! ## Graphs that were read -/

namespace Json

/-- The member with a key, where there is one, is as asked. -/
def memberIs (p : Json → Bool) (key : String) (v : Json) : Bool :=
  match v.member key with
  | .ok w => p w
  | .error _ => true

/-- The items of a value are all as asked. -/
def itemsAre (p : Json → Bool) (v : Json) : Bool := (v.items?.getD []).all p

/-- The value is a string. -/
def isString (v : Json) : Bool := v matches .str _

/-- The value is an object, or null. -/
def isTable (v : Json) : Bool := v matches .obj _ | .null

/-- The value has a string for its identifier and an object for its metadata, where it has
them. -/
def isItem (v : Json) : Bool := v.memberIs isString "id" && v.memberIs isTable "metadata"

/-- The value is an exact one, and the items of its lists of nodes and edges have strings for
their identifiers and objects for their metadata. Labels, sources and targets may be any exact
values. -/
structure IsWire (v : Json) : Prop where
  exact : v.Exact {}
  nodes : v.memberIs (itemsAre isItem) "nodes" = true
  edges : v.memberIs (itemsAre isItem) "edges" = true

theorem exact_member {v w : Json} {key : String} (hv : v.Exact {}) (hw : v.member key = .ok w) :
    w.Exact {} := by
  unfold member at hw
  split at hw
  · split at hw
    · next hget =>
      obtain rfl := Except.ok.inj hw
      exact exact_get? hv hget
    · cases hw
  · cases hw

theorem member_of_memberOr {v w default : Json} {key : String}
    (hw : v.memberOr key default = .ok w) : v.member key = .ok w ∨ w = default := by
  unfold memberOr at hw
  split at hw
  · next fs =>
    obtain rfl := Except.ok.inj hw
    rw [member]
    cases Assoc.get? (Points.ofString key) fs with
    | none => exact Or.inr rfl
    | some w => exact Or.inl rfl
  · cases hw

theorem exact_memberOr {v w default : Json} {key : String} (hv : v.Exact {})
    (hdefault : default.Exact {}) (hw : v.memberOr key default = .ok w) : w.Exact {} := by
  obtain hmember | rfl := member_of_memberOr hw
  · exact exact_member hv hmember
  · exact hdefault

theorem memberIs_of_memberOr {p : Json → Bool} {v w default : Json} {key : String}
    (hv : v.memberIs p key = true) (hdefault : p default = true)
    (hw : v.memberOr key default = .ok w) : p w = true := by
  obtain hmember | rfl := member_of_memberOr hw
  · rwa [memberIs, hmember] at hv
  · exact hdefault

theorem exact_items {v : Json} (hv : v.Exact {}) {ws : List Json} (hws : v.items? = some ws) :
    ∀ w ∈ ws, w.Exact {} := by
  unfold items? at hws
  split at hws
  · obtain rfl := Option.some.inj hws
    exact exact_arr_iff.mp hv
  · obtain rfl := Option.some.inj hws
    exact List.forall_mem_map.mpr fun _ _ => exact_str _
  · obtain rfl := Option.some.inj hws
    exact List.forall_mem_map.mpr fun _ _ => exact_str _
  · cases hws

theorem exists_of_isString {v : Json} (hv : v.isString = true) : ∃ s, v = .str s := by
  cases v with
  | str s => exact ⟨s, rfl⟩
  | _ => cases hv

/-- Metadata that are read are the default or those of an object that has members. -/
theorem isExact_membersOr {v : Json} (hv : v.Exact {}) (htable : v.isTable = true)
    {m default : Metadata} (hdefault : default.IsExact) (hm : v.membersOr default = .ok m) :
    m.IsExact ∧ (m = [] → default = []) := by
  have hnone : (.ok default : Except RecordFault Metadata) = .ok m →
      m.IsExact ∧ (m = [] → default = []) := by
    intro heq
    obtain rfl := Except.ok.inj heq
    exact ⟨hdefault, id⟩
  cases v with
  | null => exact hnone hm
  | obj fs =>
      cases fs with
      | nil => exact hnone hm
      | cons f fs =>
          obtain rfl := Except.ok.inj hm
          exact ⟨⟨f :: fs, rfl, hv⟩, fun hnil => absurd hnil (List.cons_ne_nil _ _)⟩
  | _ => cases htable

end Json

theorem NodeRecord.isExact_ofJson {v : Json} (hv : v.Exact {}) (hitem : v.isItem = true)
    {n : NodeRecord} (hn : NodeRecord.ofJson v = .ok n) : n.IsExact ∧ ∃ s, n.id = .str s := by
  obtain ⟨hid, hmetadata⟩ := Bool.and_eq_true_iff.mp hitem
  simp only [NodeRecord.ofJson, bind_eq_ok_iff] at hn
  obtain ⟨id, hidAt, label, hlabelAt, kindWord, -, kind, -, filePath, hpathAt, line,
    hlineAt, table, htableAt, metadata, hmembers, hn⟩ := hn
  obtain rfl := Except.ok.inj hn
  rw [memberIs, hidAt] at hid
  have hmetadataExact := isExact_membersOr (exact_memberOr hv exact_null htableAt)
    (memberIs_of_memberOr hmetadata rfl htableAt) ⟨[], rfl, exact_empty⟩ hmembers
  refine ⟨⟨?_, ?_, ?_, ?_, hmetadataExact.1⟩, exists_of_isString hid⟩
  · exact exact_member hv hidAt
  · exact exact_member hv hlabelAt
  · exact exact_memberOr hv exact_null hpathAt
  · exact exact_memberOr hv exact_null hlineAt

theorem EdgeRecord.isExact_ofJson {v : Json} (hv : v.Exact {}) (hitem : v.isItem = true)
    {default : Metadata} (hdefault : default.IsExact) (hne : default ≠ []) {e : EdgeRecord}
    (he : EdgeRecord.ofJson default v = .ok e) : e.IsExact ∧ ∃ s, e.id = .str s := by
  obtain ⟨hid, hmetadata⟩ := Bool.and_eq_true_iff.mp hitem
  simp only [EdgeRecord.ofJson, bind_eq_ok_iff] at he
  obtain ⟨id, hidAt, source, hsourceAt, target, htargetAt, word, -, relation, -,
    table, htableAt, metadata, hmembers, he⟩ := he
  obtain rfl := Except.ok.inj he
  obtain ⟨hmetadataExact, hnone⟩ := isExact_membersOr (exact_memberOr hv exact_null htableAt)
    (memberIs_of_memberOr hmetadata rfl htableAt) hdefault hmembers
  refine ⟨⟨?_, ?_, ?_, hmetadataExact, fun hnil => hne (hnone hnil)⟩, ?_⟩
  · exact exact_memberOr hv (exact_str _) hidAt
  · exact exact_member hv hsourceAt
  · exact exact_member hv htargetAt
  · exact exists_of_isString (memberIs_of_memberOr hid rfl hidAt)

/-- An edge stays exact when its identifier is filled in. -/
theorem EdgeRecord.IsExact.fillId {e e' : EdgeRecord} (he : e.IsExact)
    (hfill : e.fillId = .ok e') : e'.IsExact := by
  obtain ⟨id, rfl, -, rfl | ⟨s, rfl⟩⟩ := EdgeRecord.exists_of_fillId hfill
  · exact he
  · exact { he with id := exact_str s }

/-- What is read from the items of a list is read from one of them each. -/
theorem exists_of_mem_readAll {α : Type} {read : Json → Except RecordFault α} {vs : List Json}
    {as : List α} (hread : readAll read vs = .ok as) : ∀ a ∈ as, ∃ v ∈ vs, read v = .ok a := by
  induction vs generalizing as with
  | nil =>
      obtain rfl := Except.ok.inj hread
      exact List.forall_mem_nil _
  | cons v vs ih =>
      rw [readAll] at hread
      split at hread
      · cases hread
      · next a ha =>
        cases hrest : readAll read vs with
        | error fault =>
            rw [hrest] at hread
            cases hread
        | ok bs =>
            rw [hrest] at hread
            obtain rfl := Except.ok.inj hread
            refine List.forall_mem_cons.mpr ⟨⟨v, List.mem_cons_self, ha⟩, ?_⟩
            intro b hb
            obtain ⟨w, hw, hb⟩ := ih hrest b hb
            exact ⟨w, List.mem_cons_of_mem v hw, hb⟩

/-- What is read from a list of a graph is read from items that have strings for their
identifiers and objects for their metadata. -/
theorem exists_item_of_readItemsOf {α : Type} {read : Json → Except RecordFault α}
    {v list : Json} {key : String} (hv : v.Exact {})
    (hitems : v.memberIs (itemsAre isItem) key = true)
    (hlist : v.memberOr key (.arr []) = .ok list) {as : List α}
    (hread : readItemsOf read list = .ok as) :
    ∀ a ∈ as, ∃ w, w.Exact {} ∧ w.isItem = true ∧ read w = .ok a := by
  have hexact : list.Exact {} :=
    exact_memberOr hv (exact_arr_iff.mpr (List.forall_mem_nil _)) hlist
  have hall := memberIs_of_memberOr hitems rfl hlist
  rw [readItemsOf] at hread
  split at hread
  · next ws hws =>
    intro a ha
    obtain ⟨w, hw, hread⟩ := exists_of_mem_readAll hread a ha
    rw [itemsAre, hws, Option.getD_some, List.all_eq_true] at hall
    exact ⟨w, exact_items hexact hws w hw, hall w hw, hread⟩
  · cases hread

/-- A graph that was read is in order and of exact parts. -/
theorem GraphRecord.isExact_ofJson {v : Json} (hv : v.IsWire) {g : GraphRecord}
    (hg : GraphRecord.ofJson v = .ok g) : g.IsExact := by
  simp only [GraphRecord.ofJson, bind_eq_ok_iff] at hg
  obtain ⟨nodeList, hnodeList, nodes, hnodes, edgeList, hedgeList, edges, hedges, hordered⟩ :=
    hg
  have hreadNodes : ∀ n ∈ nodes, n.IsExact ∧ ∃ s, n.id = .str s := by
    intro n hn
    obtain ⟨w, hw, hitem, hread⟩ :=
      exists_item_of_readItemsOf hv.exact hv.nodes hnodeList hnodes n hn
    exact NodeRecord.isExact_ofJson hw hitem hread
  have hreadEdges : ∀ e ∈ edges, e.IsExact ∧ ∃ s, e.id = .str s := by
    intro e he
    obtain ⟨w, hw, hitem, hread⟩ :=
      exists_item_of_readItemsOf hv.exact hv.edges hedgeList hedges e he
    exact EdgeRecord.isExact_ofJson hw hitem (isExact_ofWeight 1) (List.cons_ne_nil _ _) hread
  obtain ⟨hinOrder, hnodesOf, hedgesOf⟩ := inOrder_of_ordered (fun n hn => (hreadNodes n hn).2)
    (fun e he => (hreadEdges e he).2) hordered
  refine ⟨hinOrder, fun n hn => (hreadNodes n (hnodesOf n hn)).1, fun e he => ?_⟩
  obtain ⟨e₀, he₀, hfill⟩ := hedgesOf e he
  exact (hreadEdges e₀ he₀).1.fillId hfill

/-! ## The round trip -/

/-- Where a graph comes from: it is that of some outlines, built from them or from their
records, or it was read from JSON. -/
inductive GraphRecord.Returned : GraphRecord → Prop
  | built (os : List Outline) : Returned (Graph.build os).record
  | exchanged {os : List Outline} {g : GraphRecord}
    (hg : (DraftRecord.build (os.map Outline.record) >>= DraftRecord.graph) = .ok g) :
      Returned g
  | read {v : Json} {g : GraphRecord} (hv : v.IsWire) (hg : GraphRecord.ofJson v = .ok g) :
      Returned g

theorem GraphRecord.Returned.isExact {g : GraphRecord} (hg : g.Returned) : g.IsExact := by
  cases hg with
  | built os => exact isExact_build os
  | @exchanged os _ hg =>
      rw [DraftRecord.graph_build] at hg
      obtain rfl := Except.ok.inj hg
      exact isExact_build os
  | read hv hg => exact isExact_ofJson hv hg

/-- A graph that was built or read is in order. With every indentation it is written as a text
that is read as a value, by every reader whose limits the value keeps, and that value is read as
the graph itself, which is written as the same text again. -/
theorem wire_round_trip (g : GraphRecord) (hg : g.Returned) (indent : Option Nat) :
    g.ordered = .ok g ∧
    ∃ (text : Points) (v : Json) (g' : GraphRecord),
      g.write (indent.bind Json.spaces) = .ok text ∧
      Json.read text = some v ∧
      (∀ limits, v.Exact limits → Json.readWithin limits text = .ok v) ∧
      GraphRecord.ofJson v = .ok g' ∧ g' = g ∧
      g'.write (indent.bind Json.spaces) = .ok text := by
  have hexact := hg.isExact
  have hwrite := GraphRecord.write_of_inOrder hexact.inOrder (indent.bind Json.spaces)
  have hblank : Json.Blank (indent.bind Json.spaces) := by
    cases indent with
    | none => exact blank_none
    | some n => exact blank_spaces n
  refine ⟨GraphRecord.ordered_of_inOrder hexact.inOrder, _, g.toJson, g, hwrite, ?_, ?_, ?_,
    rfl, hwrite⟩
  · exact read_write hexact.toJson hblank
  · exact fun limits hlimits => readWithin_write hlimits hblank
  · exact hexact.ofJson_toJson

/-- Two nodes that are not in order, and an edge without identifier and metadata. -/
def sparseWire : Json :=
  Json.ofFields [
    ("nodes", .arr [
      Json.ofFields [("id", Json.ofString "b"), ("label", Json.ofString "b"),
        ("type", Json.ofString "module")],
      Json.ofFields [("id", Json.ofString "a"), ("label", Json.ofString "\n\""),
        ("type", Json.ofString "class"), ("line", .int (-3))]]),
    ("edges", .arr [
      Json.ofFields [("source", Json.ofString "b"), ("target", Json.ofString "a"),
        ("relation", Json.ofString "defines")]])]

/-- What `sparseWire` is read as. -/
def filledGraph : GraphRecord :=
  { nodes := [
      { id := Json.ofString "a", label := Json.ofString "\n\"", kind := .class_
        line := .int (-3) },
      { id := Json.ofString "b", label := Json.ofString "b", kind := .module_ }]
    edges := [
      { id := Json.ofString "b|defines|a"
        source := Json.ofString "b", target := Json.ofString "a"
        relation := .defines, metadata := Metadata.ofWeight 1 }] }

theorem ofJson_sparseWire : GraphRecord.ofJson sparseWire = .ok filledGraph := by
  have hbefore : comesBefore (Json.ofString "a") (Json.ofString "b") = true := by decide +kernel
  have hnodes : sortByKey NodeRecord.id filledGraph.nodes.reverse = .ok filledGraph.nodes :=
    calc sortByKey NodeRecord.id filledGraph.nodes.reverse
        = .ok (filledGraph.nodes.reverse.mergeSort fun a b => ! comesBefore b.id a.id) := rfl
      _ = .ok filledGraph.nodes := by
        simp [filledGraph, List.mergeSort, List.MergeSort.Internal.splitInTwo, hbefore]
  have hedges : Ascending EdgeRecord.id filledGraph.edges :=
    ⟨List.forall_mem_singleton.mpr ⟨_, rfl⟩, List.pairwise_singleton _ _⟩
  calc GraphRecord.ofJson sparseWire
      = (sortByKey NodeRecord.id filledGraph.nodes.reverse >>= fun nodes =>
          sortByKey EdgeRecord.id filledGraph.edges >>= fun edges => .ok { nodes, edges }) :=
            rfl
    _ = .ok filledGraph := by
      rw [hnodes, hedges.sortByKey_eq]
      rfl

theorem isWire_sparseWire : sparseWire.IsWire where
  exact := by
    refine exact_ofFields (by simp) ?_
    simp only [List.forall_mem_cons, exact_arr_iff]
    refine ⟨⟨?_, ?_, List.forall_mem_nil _⟩, ⟨?_, List.forall_mem_nil _⟩,
      List.forall_mem_nil _⟩ <;>
      exact exact_ofFields (by simp) (by simp)
  nodes := by decide +kernel
  edges := by decide +kernel

theorem wire_round_trip_filledGraph :
    filledGraph.Returned ∧ GraphRecord.ofJson sparseWire = .ok filledGraph ∧
    ∃ (text : Points) (v : Json) (g' : GraphRecord),
      filledGraph.write (Json.spaces 2) = .ok text ∧ Json.read text = some v ∧
      GraphRecord.ofJson v = .ok g' ∧ g' = filledGraph ∧
      g'.write (Json.spaces 2) = .ok text := by
  have hreturned : filledGraph.Returned := .read isWire_sparseWire ofJson_sparseWire
  obtain ⟨-, text, v, g', hwrite, hread, -, hback⟩ :=
    wire_round_trip filledGraph hreturned (some 2)
  exact ⟨hreturned, ofJson_sparseWire, text, v, g', hwrite, hread, hback⟩

end SymbolGraph
