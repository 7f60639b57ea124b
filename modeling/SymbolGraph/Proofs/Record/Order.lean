import SymbolGraph.Proofs.Graph.Order
import SymbolGraph.Record.Agreement
set_option autoImplicit false

/-!
# Records in order

A graph as exchanged is in order when its identifiers are strings, those of edges not empty, and
ascend. Putting a graph whose identifiers are strings in order gives a graph in order
(`inOrder_of_ordered`), and putting that in order once more changes nothing
(`ordered_of_inOrder`). What has one identifier stays in the order in which it was given
(`SortedFrom`). The graph of some outlines is in order as it is built, so that it can always be
written.
-/

namespace SymbolGraph

open Json

/-- The identifiers of a list are strings, in ascending order. -/
structure Ascending {α : Type} (id : α → Json) (as : List α) : Prop where
  strings : ∀ a ∈ as, ∃ s, id a = .str s
  ascend : as.Pairwise fun a b => comesBefore (id b) (id a) = false

/-- A graph as exchanged is in order. -/
structure GraphRecord.InOrder (g : GraphRecord) : Prop where
  nodes : Ascending NodeRecord.id g.nodes
  edges : Ascending EdgeRecord.id g.edges
  filled : ∀ e ∈ g.edges, e.hasId = true

/-! ## Putting in order -/

theorem allStrings_map {α : Type} {id : α → Json} {as : List α}
    (hstrings : ∀ a ∈ as, ∃ s, id a = .str s) : allStrings (as.map id) = true := by
  rw [allStrings, List.all_eq_true]
  intro k hk
  obtain ⟨a, ha, rfl⟩ := List.mem_map.mp hk
  obtain ⟨s, hs⟩ := hstrings a ha
  rw [hs]

/-- Sorting leaves what ascends as it is. -/
theorem Ascending.sortByKey_eq {α : Type} {id : α → Json} {as : List α}
    (has : Ascending id as) : sortByKey id as = .ok as := by
  have hsorted : as.mergeSort (fun a b => ! comesBefore (id b) (id a)) = as := by
    refine List.mergeSort_of_pairwise (has.ascend.imp ?_)
    intro a b hab
    rw [hab]
    rfl
  rw [sortByKey, sortBy?, if_pos (allStrings_map has.strings), hsorted]

theorem EdgeRecord.fillIds_map {α : Type} {edge filled : α → EdgeRecord} {as : List α}
    (hfill : ∀ a ∈ as, (edge a).fillId = .ok (filled a)) :
    EdgeRecord.fillIds (fun _ => true) (as.map edge) = (as.map filled, none) := by
  induction as with
  | nil => rfl
  | cons a as ih =>
      have hrest := ih fun b hb => hfill b (List.mem_cons_of_mem a hb)
      simp only [List.map_cons, fillIds, hfill a List.mem_cons_self, hrest, ↓reduceIte]

/-- Edges that have identifiers keep them. -/
theorem EdgeRecord.fillIds_of_hasId {es : List EdgeRecord} (hes : ∀ e ∈ es, e.hasId = true) :
    EdgeRecord.fillIds (fun _ => true) es = (es, none) := by
  have hfill : ∀ e ∈ es, e.fillId = .ok e := fun e he => if_pos (hes e he)
  have hall := fillIds_map hfill
  rwa [List.map_id'] at hall

namespace GraphRecord

/-- Putting in order leaves what is in order as it is. -/
theorem ordered_of_inOrder {g : GraphRecord} (hg : g.InOrder) : g.ordered = .ok g := by
  rw [ordered, EdgeRecord.fillIds_of_hasId hg.filled]
  simp only [hg.nodes.sortByKey_eq, hg.edges.sortByKey_eq]
  rfl

/-- What is in order is written as it is. -/
theorem write_of_inOrder {g : GraphRecord} (hg : g.InOrder) (indent : Option Text) :
    g.write indent = .ok (Json.write indent g.toJson) := by
  rw [GraphRecord.write, ordered_of_inOrder hg]
  rfl

end GraphRecord

/-! ## What is put in order -/

/-- Strings are ordered as the lists of their codes. -/
theorem Points.less_eq_codes (s t : Points) :
    s.less t = decide (s.map Point.code < t.map Point.code) := by
  induction s generalizing t with
  | nil => cases t <;> simp [less]
  | cons p s ih =>
      cases t with
      | nil => simp [less]
      | cons q t =>
          have hcode : p.code = q.code ↔ p = q := ⟨Point.code_inj, congrArg Point.code⟩
          rw [less, ih, Bool.eq_iff_iff, List.map_cons, List.map_cons, decide_eq_true_iff,
            List.cons_lt_cons_iff]
          by_cases hpq : p = q
          · simp [hpq]
          · simp [hpq, hcode]

/-- The codes of a string. -/
def Json.codes : Json → List Nat
  | .str s => s.map Point.code
  | _ => []

theorem comesBefore_str (s t : Points) :
    comesBefore (.str s) (.str t) = decide ((Json.str s).codes < (Json.str t).codes) := by
  rw [comesBefore, less?, Points.less_eq_codes, codes, codes]
  cases decide (s.map Point.code < t.map Point.code) <;> rfl

/-- Items in ascending order of the codes of their identifiers. -/
def sortByCodes {α : Type} (id : α → Json) (as : List α) : List α :=
  as.mergeSort fun a b => ! decide ((id b).codes < (id a).codes)

section

variable {α : Type} (id : α → Json)

/-- The order by codes is transitive, and any two identifiers compare. -/
theorem codes_trans_total :
    (∀ a b c : α, (! decide ((id b).codes < (id a).codes)) = true →
      (! decide ((id c).codes < (id b).codes)) = true →
      (! decide ((id c).codes < (id a).codes)) = true) ∧
    ∀ a b : α, ((! decide ((id b).codes < (id a).codes)) ||
      ! decide ((id a).codes < (id b).codes)) = true := by
  constructor
  · intro a b c hab hbc
    simp only [Bool.not_eq_true', decide_eq_false_iff_not] at hab hbc ⊢
    exact List.le_trans hab hbc
  · intro a b
    simp only [Bool.or_eq_true, Bool.not_eq_true', decide_eq_false_iff_not]
    exact List.le_total _ _

theorem pairwise_sortByCodes (as : List α) :
    (sortByCodes id as).Pairwise fun a b => ¬ (id b).codes < (id a).codes := by
  obtain ⟨htrans, htotal⟩ := codes_trans_total id
  refine (List.pairwise_mergeSort htrans htotal as).imp fun hab => ?_
  rwa [Bool.not_eq_true', decide_eq_false_iff_not] at hab

/-- Items with one identifier keep their order. -/
theorem filter_sortByCodes (as : List α) (k : Json) :
    (sortByCodes id as).filter (fun a => id a = k) = as.filter fun a => id a = k := by
  obtain ⟨htrans, htotal⟩ := codes_trans_total id
  have hequal : (as.filter fun a => id a = k).Pairwise
      fun a b => (! decide ((id b).codes < (id a).codes)) = true := by
    refine List.pairwise_of_forall_mem_list fun a ha b hb => ?_
    have hids : id b = id a :=
      (of_decide_eq_true (List.mem_filter.mp hb).2).trans
        (of_decide_eq_true (List.mem_filter.mp ha).2).symm
    rw [hids, Bool.not_eq_true', decide_eq_false_iff_not]
    exact List.lt_irrefl _
  have hsublist := (List.sublist_mergeSort htrans htotal hequal List.filter_sublist).filter
    fun a => id a = k
  simp only [List.filter_filter, Bool.and_self] at hsublist
  refine (hsublist.eq_of_length ?_).symm
  exact ((List.mergeSort_perm as _).filter _).length_eq.symm

end

/-- Sorting by strings is sorting by their codes. -/
theorem sortByKey_of_strings {α : Type} {id : α → Json} {as : List α}
    (hstrings : ∀ a ∈ as, ∃ s, id a = .str s) : sortByKey id as = .ok (sortByCodes id as) := by
  have hcodes : ∀ a ∈ as, ∀ b ∈ as,
      (! comesBefore (id b) (id a)) = ! decide ((id b).codes < (id a).codes) := by
    intro a ha b hb
    obtain ⟨s, hs⟩ := hstrings a ha
    obtain ⟨t, ht⟩ := hstrings b hb
    rw [hs, ht, comesBefore_str]
  have hsorted : (as.mergeSort fun a b => ! comesBefore (id b) (id a)).map (fun a => a) =
      (as.map fun a => a).mergeSort fun a b => ! decide ((id b).codes < (id a).codes) :=
    List.map_mergeSort hcodes
  rw [List.map_id', List.map_id'] at hsorted
  rw [sortByKey, sortBy?, if_pos (allStrings_map hstrings), hsorted, sortByCodes]

/-- The items are the given ones, each once, in ascending order of their identifiers; those with
one identifier are in the order in which they were given. -/
structure SortedFrom {α : Type} (id : α → Json) (given sorted : List α) : Prop where
  perm : sorted.Perm given
  ascending : Ascending id sorted
  stable : ∀ k, sorted.filter (fun a => id a = k) = given.filter fun a => id a = k

/-- Items whose identifiers are strings can be sorted. -/
theorem exists_sortedFrom {α : Type} {id : α → Json} {as : List α}
    (hstrings : ∀ a ∈ as, ∃ s, id a = .str s) :
    ∃ bs, sortByKey id as = .ok bs ∧ SortedFrom id as bs := by
  have hperm : (sortByCodes id as).Perm as := List.mergeSort_perm as _
  refine ⟨sortByCodes id as, sortByKey_of_strings hstrings, hperm, ⟨?_, ?_⟩,
    filter_sortByCodes id as⟩
  · exact fun a ha => hstrings a (hperm.mem_iff.mp ha)
  · refine (pairwise_sortByCodes id as).imp_of_mem ?_
    intro a b ha hb hab
    obtain ⟨s, hs⟩ := hstrings a (hperm.mem_iff.mp ha)
    obtain ⟨t, ht⟩ := hstrings b (hperm.mem_iff.mp hb)
    rw [hs, ht] at hab ⊢
    rwa [comesBefore_str, decide_eq_false_iff_not]

/-- Items whose identifiers are strings ascend once they are sorted. -/
theorem ascending_of_sortByKey {α : Type} {id : α → Json} {as bs : List α}
    (hstrings : ∀ a ∈ as, ∃ s, id a = .str s) (hsort : sortByKey id as = .ok bs) :
    Ascending id bs ∧ bs.Perm as := by
  obtain ⟨bs', hsort', hsorted⟩ := exists_sortedFrom hstrings
  obtain rfl := Except.ok.inj (hsort'.symm.trans hsort)
  exact ⟨hsorted.ascending, hsorted.perm⟩

namespace EdgeRecord

/-- An edge keeps its identifier or gets a string for it, and has one then. -/
theorem exists_of_fillId {e e' : EdgeRecord} (hfill : e.fillId = .ok e') :
    ∃ id, e' = { e with id } ∧ e'.hasId = true ∧ (id = e.id ∨ ∃ s, id = .str s) := by
  rw [fillId] at hfill
  split at hfill
  · next hid =>
    obtain rfl := Except.ok.inj hfill
    exact ⟨e.id, rfl, hid, Or.inl rfl⟩
  · split at hfill
    · obtain rfl := Except.ok.inj hfill
      refine ⟨_, rfl, ?_, Or.inr ⟨_, rfl⟩⟩
      simp [hasId, truthy, linkId]
    · cases hfill

theorem exists_of_mem_fillIds {es es' : List EdgeRecord}
    (hfill : fillIds (fun _ => true) es = (es', none)) :
    ∀ e' ∈ es', ∃ e ∈ es, e.fillId = .ok e' := by
  induction es generalizing es' with
  | nil =>
      obtain rfl := (Prod.mk.inj hfill).1
      exact List.forall_mem_nil _
  | cons e es ih =>
      simp only [fillIds, ↓reduceIte] at hfill
      split at hfill
      · cases (Prod.mk.inj hfill).2
      · next e₁ he₁ =>
        obtain ⟨rfl, hnone⟩ := Prod.mk.inj hfill
        refine List.forall_mem_cons.mpr ⟨⟨e, List.mem_cons_self, he₁⟩, ?_⟩
        intro e' he'
        obtain ⟨e₀, he₀, hfilled⟩ := ih (Prod.ext rfl hnone) e' he'
        exact ⟨e₀, List.mem_cons_of_mem e he₀, hfilled⟩

end EdgeRecord

theorem bind_eq_ok_iff {ε α β : Type} {x : Except ε α} {f : α → Except ε β} {b : β} :
    (x >>= f) = .ok b ↔ ∃ a, x = .ok a ∧ f a = .ok b := by
  cases x with
  | error fault =>
      refine ⟨fun heq => ?_, fun ⟨a, ha, _⟩ => ?_⟩
      · cases heq
      · cases ha
  | ok a =>
      refine ⟨fun heq => ⟨a, rfl, heq⟩, fun ⟨a', ha', heq⟩ => ?_⟩
      obtain rfl := Except.ok.inj ha'
      exact heq

/-- A graph whose identifiers are strings is in order once it is put in order. Its nodes are
those of the graph, and its edges are those of the graph with their identifiers filled in. -/
theorem GraphRecord.inOrder_of_ordered {g g' : GraphRecord}
    (hnodes : ∀ n ∈ g.nodes, ∃ s, n.id = .str s) (hedges : ∀ e ∈ g.edges, ∃ s, e.id = .str s)
    (hg : g.ordered = .ok g') :
    g'.InOrder ∧ (∀ n ∈ g'.nodes, n ∈ g.nodes) ∧
      ∀ e ∈ g'.edges, ∃ e₀ ∈ g.edges, e₀.fillId = .ok e := by
  rcases hfill : EdgeRecord.fillIds (fun _ => true) g.edges with ⟨es, fault⟩
  rw [ordered, hfill] at hg
  cases fault with
  | some fault => cases hg
  | none =>
      obtain ⟨nodes, hsortNodes, hrest⟩ := bind_eq_ok_iff.mp hg
      obtain ⟨edges, hsortEdges, hgraph⟩ := bind_eq_ok_iff.mp hrest
      obtain rfl := Except.ok.inj hgraph
      have hfilled := EdgeRecord.exists_of_mem_fillIds hfill
      have hstrings : ∀ e ∈ es, ∃ s, e.id = .str s := by
        intro e he
        obtain ⟨e₀, he₀, hfillId⟩ := hfilled e he
        obtain ⟨id, rfl, -, rfl | hid⟩ := EdgeRecord.exists_of_fillId hfillId
        · exact hedges e₀ he₀
        · exact hid
      obtain ⟨hnodesAscend, hnodesPerm⟩ := ascending_of_sortByKey hnodes hsortNodes
      obtain ⟨hedgesAscend, hedgesPerm⟩ := ascending_of_sortByKey hstrings hsortEdges
      refine ⟨⟨hnodesAscend, hedgesAscend, ?_⟩, ?_, ?_⟩
      · intro e he
        obtain ⟨e₀, -, hfillId⟩ := hfilled e (hedgesPerm.mem_iff.mp he)
        obtain ⟨id, -, hid, -⟩ := EdgeRecord.exists_of_fillId hfillId
        exact hid
      · exact fun n hn => hnodesPerm.mem_iff.mp hn
      · exact fun e he => hfilled e (hedgesPerm.mem_iff.mp he)

/-! ## Records of built graphs -/

theorem comesBefore_text (s t : Text) : comesBefore (.text s) (.text t) = decide (s < t) := by
  rw [comesBefore, Json.text, Json.text, less?, Points.less_points]
  cases decide (s < t) <;> rfl

/-- Records of items with strictly ascending texts as identifiers ascend. -/
theorem ascending_map {α β : Type} (record : α → β) (id : β → Json) {key : α → Text}
    (hid : ∀ a, id (record a) = .text (key a)) {as : List α}
    (has : (as.map key).Pairwise (· < ·)) : Ascending id (as.map record) := by
  constructor
  · intro b hb
    obtain ⟨a, -, rfl⟩ := List.mem_map.mp hb
    exact ⟨_, hid a⟩
  · rw [List.pairwise_map]
    refine (List.pairwise_map.mp has).imp ?_
    intro a b hlt
    rw [hid, hid, comesBefore_text, decide_eq_false_iff_not]
    exact List.lt_asymm hlt

/-- Sorting the records of items by texts is sorting the items. -/
theorem sortByKey_map {α β : Type} (record : α → β) (id : β → Json) {key : α → Text}
    (hid : ∀ a, id (record a) = .text (key a)) (as : List α) :
    sortByKey id (as.map record) =
      .ok ((as.mergeSort fun a b => Text.le (key a) (key b)).map record) := by
  have hstrings : ∀ b ∈ as.map record, ∃ s, id b = .str s :=
    List.forall_mem_map.mpr fun a _ => ⟨_, hid a⟩
  have hsorted : (as.mergeSort fun a b => Text.le (key a) (key b)).map record =
      (as.map record).mergeSort fun a b => ! comesBefore (id b) (id a) := by
    refine List.map_mergeSort fun a _ b _ => ?_
    rw [hid, hid, comesBefore_text, Text.le]
  rw [sortByKey, sortBy?, if_pos (allStrings_map hstrings), hsorted]

/-- The edge of a link without identifier gets the one that the link has. -/
theorem Edge.fillId_link (e : Edge) : (e.link.record.edge e.weight).fillId = .ok e.record := by
  rw [EdgeRecord.fillId, if_neg (show ¬ (e.link.record.edge e.weight).hasId = true from nofun)]
  simp only [LinkRecord.edge, Link.record, Json.text, EdgeRecord.linkId_points]
  rfl

/-- The graph of a draft's record is the record of the draft's graph. -/
theorem Draft.graph_record (d : Draft) : d.record.graph = .ok d.graph.record := by
  have hedges : d.record.weights.map (fun w => w.1.edge w.2) =
      (d.weights.map fun w => Edge.mk w.1 w.2).map fun e => e.link.record.edge e.weight := by
    rw [Draft.record, List.map_map, List.map_map]
    rfl
  have hfill := EdgeRecord.fillIds_map
    fun e (_ : e ∈ d.weights.map fun w => Edge.mk w.1 w.2) => e.fillId_link
  have hnodeOrder := sortByKey_map Node.record NodeRecord.id (fun _ => rfl) d.nodes
  have hedgeOrder := sortByKey_map Edge.record EdgeRecord.id (fun _ => rfl)
    (d.weights.map fun w => Edge.mk w.1 w.2)
  change GraphRecord.ordered ⟨d.record.nodes, d.record.weights.map fun w => w.1.edge w.2⟩ = _
  rw [hedges, GraphRecord.ordered, hfill]
  simp only [Draft.record, hnodeOrder, hedgeOrder]
  rfl

/-- Building from the records of outlines gives the record of their graph. -/
theorem DraftRecord.graph_build (os : List Outline) :
    (DraftRecord.build (os.map Outline.record) >>= DraftRecord.graph) =
      .ok (Graph.build os).record := by
  rw [DraftRecord.build_record]
  exact Draft.graph_record _

theorem Edge.hasId_record (e : Edge) : e.record.hasId = true := by
  have hne : e.id ≠ [] := by simp [Edge.id, Link.id, Text.join]
  obtain ⟨c, t, hid⟩ := List.exists_cons_of_ne_nil hne
  rw [EdgeRecord.hasId, Edge.record, hid]
  rfl

/-- The graph of some outlines is in order. -/
theorem inOrder_build (os : List Outline) : (Graph.build os).record.InOrder where
  nodes := ascending_map Node.record NodeRecord.id (fun _ => rfl) (nodes_ascending os)
  edges := ascending_map Edge.record EdgeRecord.id (fun _ => rfl) (edges_ascending os)
  filled := by
    intro e he
    obtain ⟨e, -, rfl⟩ := List.mem_map.mp he
    exact e.hasId_record

end SymbolGraph
