import Mathlib.Data.List.Sort
import SymbolGraph.Proofs.Record.Order
import SymbolGraph.Record.Query
set_option autoImplicit false

/-!
# Queries give exact parts of a graph

In a graph whose identifiers are strings, no two nodes with the same one and no two edges with
the same one once they are filled in, a query about a node gives the edges asked for and their
ends that are nodes (`IsPart`). That fixes the answer, since it is in strictly ascending order
of identifiers (`IsPart.unique`), and an answer is a part of itself (`IsPart.self`): so asking
it the same again gives it back. The hierarchy is put together from two neighbourhoods, the
second of which is asked of the graph with the identifiers that the first one filled in; an edge
from the node to itself is in both.
-/

namespace SymbolGraph

open Json

/-! ## Strings -/

/-- Identifier and ends of the edge are strings. -/
structure EdgeRecord.OfStrings (e : EdgeRecord) : Prop where
  id : ∃ s, e.id = .str s
  source : ∃ s, e.source = .str s
  target : ∃ s, e.target = .str s

/-- Identifiers and ends in the graph are strings. -/
structure GraphRecord.OfStrings (g : GraphRecord) : Prop where
  nodes : ∀ n ∈ g.nodes, ∃ s, n.id = .str s
  edges : ∀ e ∈ g.edges, e.OfStrings

theorem same_str_iff (s : Points) (v : Json) : (str s).same v = true ↔ str s = v := by
  cases v <;> simp [same, number?]

theorem identical_str_iff (s : Points) (v : Json) : (str s).identical v = true ↔ str s = v := by
  have hnumber : (str s).isNaN = false := rfl
  rw [identical, hnumber, Bool.false_and, Bool.false_or, same_str_iff]

theorem codes_str_inj {s t : Points} (hcodes : (str s).codes = (str t).codes) : s = t :=
  List.map_injective_iff.mpr (fun _ _ => Point.code_inj) hcodes

/-! ## Order -/

/-- The items are in strictly ascending order of the codes of their identifiers. -/
def StrictlyAscending {α : Type} (id : α → Json) (as : List α) : Prop :=
  as.Pairwise fun a b => (id a).codes < (id b).codes

theorem StrictlyAscending.nodup_ids {α : Type} {id : α → Json} {as : List α}
    (has : StrictlyAscending id as) : (as.map id).Nodup := by
  refine List.pairwise_map.mpr (has.imp ?_)
  intro a b hlt heq
  rw [heq] at hlt
  exact List.lt_irrefl _ hlt

/-- Items that ascend strictly are in the only order in which they can be. -/
theorem StrictlyAscending.eq_of_mem_iff {α : Type} {id : α → Json} {as bs : List α}
    (has : StrictlyAscending id as) (hbs : StrictlyAscending id bs)
    (hmem : ∀ a, a ∈ as ↔ a ∈ bs) : as = bs := by
  have hirrefl : Std.Irrefl fun a b : α => (id a).codes < (id b).codes :=
    ⟨fun a => List.lt_irrefl (id a).codes⟩
  have hantisymm : Std.Antisymm fun a b : α => (id a).codes < (id b).codes :=
    ⟨fun a b hab hba => absurd hba (List.lt_asymm hab)⟩
  exact List.Pairwise.eq_of_mem_iff has hbs hmem

/-- Sorting items by distinct strings puts them in strictly ascending order. -/
theorem exists_sortByKey {α : Type} {id : α → Json} {as : List α}
    (hstrings : ∀ a ∈ as, ∃ s, id a = .str s) (hnodup : (as.map id).Nodup) :
    ∃ bs, sortByKey id as = .ok bs ∧ StrictlyAscending id bs ∧ bs.Perm as := by
  obtain ⟨bs, hsort, hperm, hascending, -⟩ := exists_sortedFrom hstrings
  refine ⟨bs, hsort, ?_, hperm⟩
  have hdistinct : bs.Pairwise fun a b => id a ≠ id b :=
    List.pairwise_map.mp ((hperm.map id).nodup_iff.mpr hnodup)
  refine (hascending.ascend.and hdistinct).imp_of_mem ?_
  rintro a b ha hb ⟨hle, hne⟩
  obtain ⟨s, hs⟩ := hascending.strings a ha
  obtain ⟨t, ht⟩ := hascending.strings b hb
  rw [hs, ht] at hne ⊢
  rw [hs, ht, comesBefore_str, decide_eq_false_iff_not] at hle
  refine (List.le_iff_lt_or_eq.mp hle).resolve_right fun hcodes => ?_
  exact hne (congrArg str (codes_str_inj hcodes))

/-! ## Identifiers filled in -/

namespace EdgeRecord

/-- The edge with an identifier, made from its ends if it has none. -/
def identified (e : EdgeRecord) : EdgeRecord := e.fillId.toOption.getD e

/-- Filling in an identifier changes nothing else. -/
theorem exists_identified (e : EdgeRecord) : ∃ id, e.identified = { e with id } := by
  unfold identified
  cases hfill : e.fillId with
  | error fault => exact ⟨e.id, rfl⟩
  | ok e' =>
      obtain ⟨id, he', -⟩ := exists_of_fillId hfill
      exact ⟨id, he'⟩

@[simp] theorem source_identified (e : EdgeRecord) : e.identified.source = e.source := by
  obtain ⟨id, h⟩ := e.exists_identified
  rw [h]

@[simp] theorem target_identified (e : EdgeRecord) : e.identified.target = e.target := by
  obtain ⟨id, h⟩ := e.exists_identified
  rw [h]

@[simp] theorem relation_identified (e : EdgeRecord) : e.identified.relation = e.relation := by
  obtain ⟨id, h⟩ := e.exists_identified
  rw [h]

theorem identified_of_hasId {e : EdgeRecord} (he : e.hasId = true) : e.identified = e := by
  rw [identified, fillId, if_pos he]
  rfl

section

variable {e : EdgeRecord} (he : e.OfStrings)
include he

theorem fillId_eq : e.fillId = .ok e.identified := by
  obtain ⟨s, hs⟩ := he.source
  obtain ⟨t, ht⟩ := he.target
  have hok : ∃ e', e.fillId = .ok e' := by
    rw [fillId, hs, ht]
    split
    · exact ⟨_, rfl⟩
    · exact ⟨_, rfl⟩
  obtain ⟨e', hfill⟩ := hok
  rw [identified, hfill]
  rfl

theorem hasId_identified : e.identified.hasId = true := by
  obtain ⟨id, -, hid, -⟩ := exists_of_fillId (fillId_eq he)
  exact hid

theorem identified_identified : e.identified.identified = e.identified :=
  identified_of_hasId (hasId_identified he)

theorem OfStrings.identified : e.identified.OfStrings := by
  obtain ⟨id, heq, -, hid⟩ := exists_of_fillId (fillId_eq he)
  refine ⟨?_, ?_, ?_⟩
  · rw [heq]
    rcases hid with rfl | hid
    · exact he.id
    · exact hid
  · rw [source_identified]
    exact he.source
  · rw [target_identified]
    exact he.target

end

theorem fillIds_eq (selected : EdgeRecord → Bool) {es : List EdgeRecord}
    (hes : ∀ e ∈ es, e.OfStrings) :
    fillIds selected es = (es.map fun e => if selected e then e.identified else e, none) := by
  induction es with
  | nil => rfl
  | cons e es ih =>
      have hrest := ih fun e' he' => hes e' (List.mem_cons_of_mem e he')
      rw [fillIds, hrest, fillId_eq (hes e List.mem_cons_self)]
      by_cases hselected : selected e = true <;> simp [hselected]

theorem fillIds_all {es : List EdgeRecord} (hes : ∀ e ∈ es, e.OfStrings) :
    fillIds (fun _ => true) es = (es.map identified, none) := by
  rw [fillIds_eq _ hes]
  simp

end EdgeRecord

namespace Direction

/-- An edge belongs to a neighbourhood if it has one of the relations and ends in the node. -/
theorem selects_iff (d : Direction) {id : Json} {e : EdgeRecord} (he : e.OfStrings) :
    d.selects id e = true ↔ e.relation ∈ d.relations ∧ d.anchor e = id := by
  have hanchor : ∃ s, d.anchor e = .str s := by
    unfold anchor
    split
    · exact he.source
    · exact he.target
  obtain ⟨s, hs⟩ := hanchor
  rw [selects, Bool.and_eq_true, List.contains_iff_mem, hs, same_str_iff]

theorem exists_other (d : Direction) {e : EdgeRecord} (he : e.OfStrings) :
    ∃ s, d.other e = .str s := by
  unfold other
  split
  · exact he.target
  · exact he.source

@[simp] theorem anchor_identified (d : Direction) (e : EdgeRecord) :
    d.anchor e.identified = d.anchor e := by
  simp [anchor]

@[simp] theorem other_identified (d : Direction) (e : EdgeRecord) :
    d.other e.identified = d.other e := by
  simp [other]

/-- An edge has two ends, whichever of them the direction starts from. -/
theorem ends_iff (d : Direction) {v : Json} {e : EdgeRecord} :
    (v = e.source ∨ v = e.target) ↔ (v = d.anchor e ∨ v = d.other e) := by
  unfold anchor other
  split
  · exact Iff.rfl
  · exact or_comm

end Direction

/-! ## Records by their keys -/

section

variable {α : Type} {key : α → Json} {all : List α}
  (hkey : ∀ a ∈ all, ∀ b ∈ all, (key a).identical (key b) = true ↔ a = b)
include hkey

/-- A record is put at the end unless it is there. -/
theorem putRecord_eq [DecidableEq α] {a : α} {bs : List α} (ha : a ∈ all)
    (hbs : ∀ b ∈ bs, b ∈ all) : putRecord key a bs = if a ∈ bs then bs else bs ++ [a] := by
  induction bs with
  | nil => rfl
  | cons b bs ih =>
      have hrest := ih fun c hc => hbs c (List.mem_cons_of_mem b hc)
      have hsame := hkey b (hbs b List.mem_cons_self) a ha
      by_cases hab : b = a
      · rw [putRecord, if_pos (hsame.mpr hab), hab, if_pos List.mem_cons_self]
      · rw [putRecord, if_neg (fun h => hab (hsame.mp h)), hrest]
        by_cases hmem : a ∈ bs
        · rw [if_pos hmem, if_pos (List.mem_cons_of_mem b hmem)]
        · rw [if_neg hmem, if_neg (by simp [Ne.symm hab, hmem]), List.cons_append]

/-- Records put in one after the other are there once each. -/
theorem putRecords_spec {as bs : List α} (has : ∀ a ∈ as, a ∈ all) (hbs : ∀ b ∈ bs, b ∈ all)
    (hnodup : bs.Nodup) :
    (putRecords key bs as).Nodup ∧ ∀ a, a ∈ putRecords key bs as ↔ a ∈ bs ∨ a ∈ as := by
  classical
  induction as generalizing bs with
  | nil => exact ⟨hnodup, fun a => (or_iff_left List.not_mem_nil).symm⟩
  | cons a as ih =>
      have ha := has a List.mem_cons_self
      have hput := putRecord_eq hkey ha hbs
      have hmem : ∀ b, b ∈ putRecord key a bs ↔ b ∈ bs ∨ b = a := by
        intro b
        rw [hput]
        split
        · next hthere =>
          refine ⟨Or.inl, ?_⟩
          rintro (hb | rfl)
          · exact hb
          · exact hthere
        · rw [List.mem_append, List.mem_singleton]
      have hdistinct : (putRecord key a bs).Nodup := by
        rw [hput]
        split
        · exact hnodup
        · next hnew =>
          rw [← List.concat_eq_append]
          exact hnodup.concat hnew
      have hall : ∀ b ∈ putRecord key a bs, b ∈ all := by
        intro b hb
        rcases (hmem b).mp hb with hb | rfl
        · exact hbs b hb
        · exact ha
      obtain ⟨hlater, hiff⟩ := ih (fun c hc => has c (List.mem_cons_of_mem a hc)) hall hdistinct
      refine ⟨hlater, fun b => ?_⟩
      rw [putRecords, List.foldl_cons, ← putRecords, hiff, hmem, List.mem_cons, or_assoc]

end

/-- Items with distinct strings as keys are told apart by them. -/
theorem identical_key_iff {α : Type} {key : α → Json} {all : List α}
    (hstrings : ∀ a ∈ all, ∃ s, key a = .str s) (hnodup : (all.map key).Nodup) :
    ∀ a ∈ all, ∀ b ∈ all, (key a).identical (key b) = true ↔ a = b := by
  intro a ha b hb
  obtain ⟨s, hs⟩ := hstrings a ha
  rw [hs, identical_str_iff, ← hs]
  exact ⟨List.inj_on_of_nodup_map hnodup ha hb, congrArg key⟩

/-! ## Parts of a graph -/

namespace GraphRecord

/-- Identifiers and ends are strings. No two nodes have the same identifier, and no two edges
have the same once all identifiers are filled in. An end of an edge need not be a node. -/
structure WellIdentified (g : GraphRecord) : Prop extends g.OfStrings where
  nodeIds : (g.nodes.map NodeRecord.id).Nodup
  edgeIds : (g.filled.edges.map EdgeRecord.id).Nodup

/-- The part of a graph that the edges with a property make up: these edges with their
identifiers, the node asked about and all other nodes that an edge of the part ends in, in
strictly ascending order of their identifiers. -/
structure IsPart (g : GraphRecord) (id : Json) (property : EdgeRecord → Prop)
    (r : GraphRecord) :
    Prop where
  edges : ∀ e, e ∈ r.edges ↔ e ∈ g.filled.edges ∧ property e
  nodes : ∀ n, n ∈ r.nodes ↔
    n ∈ g.nodes ∧ (n.id = id ∨ ∃ e ∈ r.edges, n.id = e.source ∨ n.id = e.target)
  edgesAscend : StrictlyAscending EdgeRecord.id r.edges
  nodesAscend : StrictlyAscending NodeRecord.id r.nodes

variable {g r : GraphRecord} {id : Json} {property : EdgeRecord → Prop}

theorem edges_filled (hg : g.OfStrings) :
    g.filled.edges = g.edges.map EdgeRecord.identified := by
  rw [filled, EdgeRecord.fillIds_all hg.edges]

/-- Identifiers that are filled in are strings too. -/
theorem strings_filled (hg : g.OfStrings) : ∀ e ∈ g.filled.edges, ∃ s, e.id = .str s := by
  rw [edges_filled hg]
  intro e he
  obtain ⟨e₀, he₀, rfl⟩ := List.mem_map.mp he
  exact (hg.edges e₀ he₀).identified.id

/-- There is one part at most. -/
theorem IsPart.unique {r' : GraphRecord} (hr : g.IsPart id property r)
    (hr' : g.IsPart id property r') : r = r' := by
  have hedges : r.edges = r'.edges := by
    refine hr.edgesAscend.eq_of_mem_iff hr'.edgesAscend fun e => ?_
    rw [hr.edges, hr'.edges]
  have hnodes : r.nodes = r'.nodes := by
    refine hr.nodesAscend.eq_of_mem_iff hr'.nodesAscend fun n => ?_
    rw [hr.nodes, hr'.nodes, hedges]
  cases r
  cases r'
  rw [mk.injEq]
  exact ⟨hnodes, hedges⟩

section

variable (hg : g.WellIdentified) (hr : g.IsPart id property r)
include hg hr

theorem IsPart.exists_edge {e : EdgeRecord} (he : e ∈ r.edges) :
    ∃ e₀ ∈ g.edges, e = e₀.identified ∧ e₀.OfStrings := by
  have hfilled := ((hr.edges e).mp he).1
  rw [edges_filled hg.toOfStrings] at hfilled
  obtain ⟨e₀, he₀, rfl⟩ := List.mem_map.mp hfilled
  exact ⟨e₀, he₀, rfl, hg.toOfStrings.edges e₀ he₀⟩

theorem IsPart.identified_eq {e : EdgeRecord} (he : e ∈ r.edges) : e.identified = e := by
  obtain ⟨e₀, -, rfl, hstrings⟩ := hr.exists_edge hg he
  exact EdgeRecord.identified_identified hstrings

theorem IsPart.ofStrings : r.OfStrings where
  nodes n hn := hg.toOfStrings.nodes n ((hr.nodes n).mp hn).1
  edges e he := by
    obtain ⟨e₀, -, rfl, hstrings⟩ := hr.exists_edge hg he
    exact hstrings.identified

/-- A part has its identifiers filled in. -/
theorem IsPart.filled_eq : r.filled.edges = r.edges := by
  rw [edges_filled (hr.ofStrings hg)]
  exact (List.map_congr_left fun e he => hr.identified_eq hg he).trans (List.map_id r.edges)

theorem IsPart.wellIdentified : r.WellIdentified where
  toOfStrings := hr.ofStrings hg
  nodeIds := hr.nodesAscend.nodup_ids
  edgeIds := hr.filled_eq hg ▸ hr.edgesAscend.nodup_ids

/-- A part is a part of itself. -/
theorem IsPart.self : r.IsPart id property r where
  edges e := by
    rw [hr.filled_eq hg]
    exact ⟨fun he => ⟨he, ((hr.edges e).mp he).2⟩, And.left⟩
  nodes n := ⟨fun hn => ⟨hn, ((hr.nodes n).mp hn).2⟩, And.left⟩
  edgesAscend := hr.edgesAscend
  nodesAscend := hr.nodesAscend

end

/-! ## Neighbourhoods -/

/-- Looking a node up by its identifier finds the only one that has it, from whichever end. -/
theorem find?_eq_some_iff {ns : List NodeRecord} (hstrings : ∀ n ∈ ns, ∃ s, n.id = .str s)
    (hnodup : (ns.map NodeRecord.id).Nodup) {test : Json → Json → Bool}
    (htest : ∀ s v, test (.str s) v = true ↔ .str s = v) {n : NodeRecord} :
    ns.find? (fun n => test n.id id) = some n ↔ n ∈ ns ∧ n.id = id := by
  have hmatch : ∀ m ∈ ns, test m.id id = true ↔ m.id = id := by
    intro m hm
    obtain ⟨s, hs⟩ := hstrings m hm
    rw [hs, htest]
  have hfinds : ∀ {m}, ns.find? (fun n => test n.id id) = some m → m ∈ ns ∧ m.id = id := by
    intro m hfind
    have hm := List.mem_of_find?_eq_some hfind
    have hmid := List.find?_some (p := fun n : NodeRecord => test n.id id) hfind
    exact ⟨hm, (hmatch m hm).mp hmid⟩
  refine ⟨hfinds, ?_⟩
  rintro ⟨hn, hid⟩
  have hfound : (ns.find? fun n => test n.id id).isSome = true :=
    List.find?_isSome.mpr ⟨n, hn, (hmatch n hn).mpr hid⟩
  obtain ⟨m, hm⟩ := Option.isSome_iff_exists.mp hfound
  obtain ⟨hmem, hmid⟩ := hfinds hm
  rw [hm, List.inj_on_of_nodup_map hnodup hmem hn (hmid.trans hid.symm)]

section

variable (hg : g.WellIdentified)
include hg

theorem node?_eq_some_iff {n : NodeRecord} : g.node? id = some n ↔ n ∈ g.nodes ∧ n.id = id :=
  find?_eq_some_iff hg.toOfStrings.nodes hg.nodeIds same_str_iff

theorem node?_eq_none_iff : g.node? id = none ↔ ∀ n ∈ g.nodes, n.id ≠ id := by
  rw [Option.eq_none_iff_forall_ne_some]
  refine forall_congr' fun n => ?_
  rw [ne_eq, node?_eq_some_iff hg, not_and]

theorem lastNode?_eq_some_iff {n : NodeRecord} :
    g.lastNode? id = some n ↔ n ∈ g.nodes ∧ n.id = id := by
  have hstrings : ∀ n ∈ g.nodes.reverse, ∃ s, n.id = .str s :=
    fun n hn => hg.toOfStrings.nodes n (List.mem_reverse.mp hn)
  have hnodup : (g.nodes.reverse.map NodeRecord.id).Nodup := by
    rw [List.map_reverse, List.nodup_reverse]
    exact hg.nodeIds
  rw [lastNode?, find?_eq_some_iff hstrings hnodup identical_str_iff, List.mem_reverse]

/-- The neighbours are the node asked about and the other ends that are nodes, each once. -/
theorem neighbours_spec (d : Direction) {center : NodeRecord} (hcenter : center ∈ g.nodes)
    (es : List EdgeRecord) :
    (g.neighbours d center es).Nodup ∧ ∀ n, n ∈ g.neighbours d center es ↔
      n = center ∨ n ∈ g.nodes ∧ ∃ e ∈ es, d.other e = n.id := by
  rw [neighbours]
  generalize hends : (es.filterMap fun e => g.lastNode? (d.other e)) = ends
  have hfound : ∀ n, n ∈ ends ↔ n ∈ g.nodes ∧ ∃ e ∈ es, d.other e = n.id := by
    intro n
    rw [← hends, List.mem_filterMap]
    constructor
    · rintro ⟨e, he, hlast⟩
      obtain ⟨hn, hid⟩ := (lastNode?_eq_some_iff hg).mp hlast
      exact ⟨hn, e, he, hid.symm⟩
    · rintro ⟨hn, e, he, hid⟩
      exact ⟨e, he, (lastNode?_eq_some_iff hg).mpr ⟨hn, hid.symm⟩⟩
  have hcenters : ∀ n ∈ [center], n ∈ g.nodes := by
    intro n hn
    rwa [List.mem_singleton.mp hn]
  obtain ⟨hnodup, hmem⟩ := putRecords_spec (identical_key_iff hg.toOfStrings.nodes hg.nodeIds)
    (fun n hn => ((hfound n).mp hn).1) hcenters (List.nodup_singleton center)
  refine ⟨hnodup, fun n => ?_⟩
  rw [hmem, List.mem_singleton, hfound]

end

/-- A graph that is made of nodes and edges of another is as well identified. -/
theorem WellIdentified.restrict (hg : g.WellIdentified) {ns : List NodeRecord}
    {es : List EdgeRecord} (hns : ns.Nodup) (hnodes : ∀ n ∈ ns, n ∈ g.nodes)
    (hes : (es.map EdgeRecord.identified).Nodup)
    (hedges : ∀ e ∈ es, e.OfStrings ∧ e.identified ∈ g.filled.edges) :
    WellIdentified { nodes := ns, edges := es } := by
  have hstrings : OfStrings { nodes := ns, edges := es } :=
    ⟨fun n hn => hg.toOfStrings.nodes n (hnodes n hn), fun e he => (hedges e he).1⟩
  refine ⟨hstrings, ?_, ?_⟩
  · refine hns.map_on fun n hn m hm heq => ?_
    exact List.inj_on_of_nodup_map hg.nodeIds (hnodes n hn) (hnodes m hm) heq
  · have hwithin : ∀ e ∈ es.map EdgeRecord.identified, e ∈ g.filled.edges := by
      intro e he
      obtain ⟨e₀, he₀, rfl⟩ := List.mem_map.mp he
      exact (hedges e₀ he₀).2
    rw [edges_filled hstrings]
    refine hes.map_on fun e he e' he' heq => ?_
    exact List.inj_on_of_nodup_map hg.edgeIds (hwithin e he) (hwithin e' he') heq

/-- A graph can be put in order, and is the part that its own edges make up. -/
theorem exists_part_ordered {sub : GraphRecord} (hsub : sub.WellIdentified)
    (hedges : ∀ e, e ∈ sub.filled.edges ↔ e ∈ g.filled.edges ∧ property e)
    (hnodes : ∀ n, n ∈ sub.nodes ↔
      n ∈ g.nodes ∧ (n.id = id ∨ ∃ e ∈ sub.filled.edges, n.id = e.source ∨ n.id = e.target)) :
    ∃ r, sub.ordered = .ok r ∧ g.IsPart id property r := by
  have hfill := EdgeRecord.fillIds_all hsub.toOfStrings.edges
  obtain ⟨ns, hsortNodes, hnodesAscend, hnodesPerm⟩ :=
    exists_sortByKey hsub.toOfStrings.nodes hsub.nodeIds
  obtain ⟨es, hsortEdges, hedgesAscend, hedgesPerm⟩ :=
    exists_sortByKey (strings_filled hsub.toOfStrings) hsub.edgeIds
  refine ⟨{ nodes := ns, edges := es }, ?_, ?_, ?_, hedgesAscend, hnodesAscend⟩
  · rw [edges_filled hsub.toOfStrings] at hsortEdges
    simp only [ordered, hfill, hsortNodes, hsortEdges]
    rfl
  · intro e
    exact hedgesPerm.mem_iff.trans (hedges e)
  · intro n
    refine (hnodesPerm.mem_iff.trans (hnodes n)).trans ?_
    simp only [hedgesPerm.mem_iff]

/-- The graph with the identifiers filled in of the edges that a neighbourhood is made of. -/
def fillSelected (g : GraphRecord) (d : Direction) (id : Json) : GraphRecord :=
  { g with edges := g.edges.map fun e => if d.selects id e then e.identified else e }

/-- Filling some identifiers in, and then all, is filling all of them in. -/
theorem fillSelected_spec (hg : g.OfStrings) (d : Direction) (id : Json) :
    (g.fillSelected d id).OfStrings ∧ (g.fillSelected d id).filled.edges = g.filled.edges := by
  have hstrings : (g.fillSelected d id).OfStrings := by
    refine ⟨hg.nodes, fun e he => ?_⟩
    obtain ⟨e₀, he₀, rfl⟩ := List.mem_map.mp he
    split
    · exact (hg.edges e₀ he₀).identified
    · exact hg.edges e₀ he₀
  refine ⟨hstrings, ?_⟩
  rw [edges_filled hstrings, edges_filled hg, fillSelected, List.map_map]
  refine List.map_congr_left fun e he => ?_
  simp only [Function.comp]
  split
  · exact EdgeRecord.identified_identified (hg.edges e he)
  · rfl

theorem WellIdentified.fillSelected (hg : g.WellIdentified) (d : Direction) (id : Json) :
    (g.fillSelected d id).WellIdentified := by
  obtain ⟨hstrings, hfilled⟩ := fillSelected_spec hg.toOfStrings d id
  exact ⟨hstrings, hg.nodeIds, hfilled ▸ hg.edgeIds⟩

/-- Strings can be keys. -/
theorem checkKeys_eq_ok {α : Type} {key : α → Json} {as : List α}
    (hstrings : ∀ a ∈ as, ∃ s, key a = .str s) : checkKeys key as = .ok () := by
  refine if_pos (List.all_eq_true.mpr fun a ha => ?_)
  obtain ⟨s, hs⟩ := hstrings a ha
  rw [hs]
  rfl

/-- The edges of a neighbourhood and their ends that are nodes, before they are put in order. -/
def selection (g : GraphRecord) (d : Direction) (center : NodeRecord) : GraphRecord :=
  { nodes := g.neighbours d center (g.edges.filter (d.selects center.id))
    edges := g.edges.filter (d.selects center.id) }

section

variable (hg : g.WellIdentified) (d : Direction) {center : NodeRecord}
include hg

theorem mem_edges_selection {e : EdgeRecord} :
    e ∈ (g.selection d center).edges ↔
      e ∈ g.edges ∧ e.relation ∈ d.relations ∧ d.anchor e = center.id := by
  rw [selection, List.mem_filter]
  exact and_congr_right fun he => d.selects_iff (hg.toOfStrings.edges e he)

variable (hcenter : center ∈ g.nodes)
include hcenter

theorem wellIdentified_selection : (g.selection d center).WellIdentified := by
  obtain ⟨hnodup, hmem⟩ := neighbours_spec hg d hcenter (g.selection d center).edges
  refine hg.restrict hnodup ?_ ?_ ?_
  · intro n hn
    rcases (hmem n).mp hn with rfl | ⟨hn, -⟩
    · exact hcenter
    · exact hn
  · have hall : (g.edges.map EdgeRecord.identified).Nodup := by
      rw [← edges_filled hg.toOfStrings]
      exact hg.edgeIds.of_map
    exact hall.sublist (List.filter_sublist.map _)
  · intro e he
    have he := ((mem_edges_selection hg d).mp he).1
    rw [edges_filled hg.toOfStrings]
    exact ⟨hg.toOfStrings.edges e he, List.mem_map_of_mem he⟩

theorem mem_filled_selection {e : EdgeRecord} :
    e ∈ (g.selection d center).filled.edges ↔
      e ∈ g.filled.edges ∧ e.relation ∈ d.relations ∧ d.anchor e = center.id := by
  rw [edges_filled (wellIdentified_selection hg d hcenter).toOfStrings,
    edges_filled hg.toOfStrings, List.mem_map, List.mem_map]
  constructor
  · rintro ⟨e₀, he₀, rfl⟩
    obtain ⟨he, hselected⟩ := (mem_edges_selection hg d).mp he₀
    rw [EdgeRecord.relation_identified, Direction.anchor_identified]
    exact ⟨⟨e₀, he, rfl⟩, hselected⟩
  · rintro ⟨⟨e₀, he₀, rfl⟩, hselected⟩
    rw [EdgeRecord.relation_identified, Direction.anchor_identified] at hselected
    exact ⟨e₀, (mem_edges_selection hg d).mpr ⟨he₀, hselected⟩, rfl⟩

theorem mem_nodes_selection {n : NodeRecord} :
    n ∈ (g.selection d center).nodes ↔ n ∈ g.nodes ∧ (n.id = center.id ∨
      ∃ e ∈ (g.selection d center).filled.edges, n.id = e.source ∨ n.id = e.target) := by
  have hmem := (neighbours_spec hg d hcenter (g.selection d center).edges).2 n
  have hfilled := edges_filled (wellIdentified_selection hg d hcenter).toOfStrings
  refine hmem.trans ⟨?_, ?_⟩
  · rintro (rfl | ⟨hn, e, he, hid⟩)
    · exact ⟨hcenter, Or.inl rfl⟩
    · refine ⟨hn,
        Or.inr ⟨e.identified, hfilled ▸ List.mem_map_of_mem he, d.ends_iff.mpr (Or.inr ?_)⟩⟩
      rw [Direction.other_identified, hid]
  · rintro ⟨hn, hid | ⟨e, he, hend⟩⟩
    · exact Or.inl (List.inj_on_of_nodup_map hg.nodeIds hn hcenter hid)
    · rcases d.ends_iff.mp hend with hanchor | hother
      · -- the end that the direction starts from is the node asked about
        have hid := hanchor.trans ((mem_filled_selection hg d hcenter).mp he).2.2
        exact Or.inl (List.inj_on_of_nodup_map hg.nodeIds hn hcenter hid)
      · rw [hfilled] at he
        obtain ⟨e₀, he₀, rfl⟩ := List.mem_map.mp he
        rw [Direction.other_identified] at hother
        exact Or.inr ⟨hn, e₀, he₀, hother.symm⟩

end

/-- The neighbourhood of a node is the part that its edges in one direction make up. -/
theorem exists_neighbourhood (hg : g.WellIdentified) (d : Direction)
    (hnode : ∃ n ∈ g.nodes, n.id = id) :
    ∃ r, g.neighbourhood d id = (.ok r, g.fillSelected d id) ∧
      g.IsPart id (fun e => e.relation ∈ d.relations ∧ d.anchor e = id) r := by
  obtain ⟨center, hcenter, rfl⟩ := hnode
  have hlookup : g.node? center.id = some center := (node?_eq_some_iff hg).mpr ⟨hcenter, rfl⟩
  have hothers : ∀ e ∈ g.edges.filter (d.selects center.id), ∃ s, d.other e = .str s :=
    fun e he => d.exists_other (hg.toOfStrings.edges e (List.mem_filter.mp he).1)
  obtain ⟨r, hordered, hr⟩ := exists_part_ordered (wellIdentified_selection hg d hcenter)
    (fun e => mem_filled_selection hg d hcenter) (fun n => mem_nodes_selection hg d hcenter)
  refine ⟨r, ?_, hr⟩
  rw [selection] at hordered
  simp only [neighbourhood, hlookup, checkKeys_eq_ok hg.toOfStrings.nodes,
    checkKeys_eq_ok hothers, hordered, EdgeRecord.fillIds_eq _ hg.toOfStrings.edges]
  rfl

/-! ## Two parts as one -/

/-- The nodes and edges of two graphs, before they are put in order. -/
def merged (a b : GraphRecord) : GraphRecord :=
  { nodes := putRecords NodeRecord.id [] (a.nodes ++ b.nodes)
    edges := putRecords EdgeRecord.id [] (a.edges ++ b.edges) }

section

variable (hg : g.WellIdentified) {a b : GraphRecord} {other : EdgeRecord → Prop}
  (ha : g.IsPart id property a) (hb : g.IsPart id other b)
include hg ha hb

/-- The nodes of two parts are put together without repetitions. -/
theorem nodes_merged :
    (merged a b).nodes.Nodup ∧ ∀ n, n ∈ (merged a b).nodes ↔ n ∈ a.nodes ∨ n ∈ b.nodes := by
  have hwithin : ∀ n ∈ a.nodes ++ b.nodes, n ∈ g.nodes := by
    intro n hn
    rcases List.mem_append.mp hn with hn | hn
    · exact ((ha.nodes n).mp hn).1
    · exact ((hb.nodes n).mp hn).1
  obtain ⟨hnodup, hmem⟩ := putRecords_spec (identical_key_iff hg.toOfStrings.nodes hg.nodeIds)
    hwithin (List.forall_mem_nil _) List.nodup_nil
  refine ⟨hnodup, fun n => (hmem n).trans ?_⟩
  rw [or_iff_right List.not_mem_nil, List.mem_append]

/-- The edges of two parts are put together without repetitions. -/
theorem edges_merged :
    (merged a b).edges.Nodup ∧ ∀ e, e ∈ (merged a b).edges ↔ e ∈ a.edges ∨ e ∈ b.edges := by
  have hwithin : ∀ e ∈ a.edges ++ b.edges, e ∈ g.filled.edges := by
    intro e he
    rcases List.mem_append.mp he with he | he
    · exact ((ha.edges e).mp he).1
    · exact ((hb.edges e).mp he).1
  obtain ⟨hnodup, hmem⟩ := putRecords_spec
    (identical_key_iff (strings_filled hg.toOfStrings) hg.edgeIds) hwithin
      (List.forall_mem_nil _)
    List.nodup_nil
  refine ⟨hnodup, fun e => (hmem e).trans ?_⟩
  rw [or_iff_right List.not_mem_nil, List.mem_append]

theorem union_eq_ordered : union a b = (merged a b).ordered := by
  have hnodes : ∀ n ∈ a.nodes ++ b.nodes, ∃ s, n.id = .str s := by
    intro n hn
    rcases List.mem_append.mp hn with hn | hn
    · exact (ha.ofStrings hg).nodes n hn
    · exact (hb.ofStrings hg).nodes n hn
  have hedges : ∀ e ∈ a.edges ++ b.edges, ∃ s, e.id = .str s := by
    intro e he
    rcases List.mem_append.mp he with he | he
    · exact ((ha.ofStrings hg).edges e he).id
    · exact ((hb.ofStrings hg).edges e he).id
  simp only [union, checkKeys_eq_ok hnodes, checkKeys_eq_ok hedges]
  rfl

/-- An edge of either part has its identifier. -/
theorem identified_merged :
    (merged a b).edges.map EdgeRecord.identified = (merged a b).edges := by
  refine (List.map_congr_left fun e he => ?_).trans (List.map_id _)
  rcases ((edges_merged hg ha hb).2 e).mp he with he | he
  · exact ha.identified_eq hg he
  · exact hb.identified_eq hg he

theorem wellIdentified_merged : (merged a b).WellIdentified := by
  obtain ⟨hnodesNodup, hnodes⟩ := nodes_merged hg ha hb
  obtain ⟨hedgesNodup, hedges⟩ := edges_merged hg ha hb
  refine hg.restrict hnodesNodup ?_ ?_ ?_
  · intro n hn
    rcases (hnodes n).mp hn with hn | hn
    · exact ((ha.nodes n).mp hn).1
    · exact ((hb.nodes n).mp hn).1
  · exact (congrArg List.Nodup (identified_merged hg ha hb)).mpr hedgesNodup
  · intro e he
    rcases (hedges e).mp he with he | he
    · rw [ha.identified_eq hg he]
      exact ⟨(ha.ofStrings hg).edges e he, ((ha.edges e).mp he).1⟩
    · rw [hb.identified_eq hg he]
      exact ⟨(hb.ofStrings hg).edges e he, ((hb.edges e).mp he).1⟩

/-- The union of two parts is the part that the edges of either make up. -/
theorem exists_union :
    ∃ r, union a b = .ok r ∧ g.IsPart id (fun e => property e ∨ other e) r := by
  have hmerged := wellIdentified_merged hg ha hb
  have hfilled : (merged a b).filled.edges = (merged a b).edges :=
    (edges_filled hmerged.toOfStrings).trans (identified_merged hg ha hb)
  have hedges := (edges_merged hg ha hb).2
  rw [union_eq_ordered hg ha hb]
  refine exists_part_ordered hmerged (fun e => ?_) fun n => ?_
  · rw [hfilled, hedges, ha.edges, hb.edges, and_or_left]
  · rw [hfilled, (nodes_merged hg ha hb).2, ha.nodes, hb.nodes]
    simp only [hedges, or_and_right, exists_or]
    rw [← and_or_left, ← or_or_distrib_left]

end

/-! ## The two queries -/

theorem IsPart.congr {g' : GraphRecord} {property' : EdgeRecord → Prop}
    (hr : g'.IsPart id property r) (hnodes : g'.nodes = g.nodes)
    (hfilled : g'.filled.edges = g.filled.edges) (hproperty : ∀ e, property e ↔ property' e) :
    g.IsPart id property' r where
  edges e := by
    rw [← hfilled, ← hproperty]
    exact hr.edges e
  nodes n := by
    rw [← hnodes]
    exact hr.nodes n
  edgesAscend := hr.edgesAscend
  nodesAscend := hr.nodesAscend

/-- The edge is one by which the node calls or uses something. -/
def IsDependency (id : Json) (e : EdgeRecord) : Prop :=
  (e.relation = .calls ∨ e.relation = .uses) ∧ e.source = id

/-- The edge is one by which the node inherits or is inherited from. -/
def IsInheritance (id : Json) (e : EdgeRecord) : Prop :=
  e.relation = .inherits ∧ (e.source = id ∨ e.target = id)

instance (id : Json) (e : EdgeRecord) : Decidable (IsInheritance id e) :=
  inferInstanceAs (Decidable (_ ∧ _))

section

variable (hg : g.WellIdentified) (hnode : ∃ n ∈ g.nodes, n.id = id)
include hg hnode

theorem exists_dependencies :
    ∃ r, g.dependencies id =
        (.ok r, g.fillSelected { relations := [.calls, .uses], outgoing := true } id) ∧
      g.IsPart id (IsDependency id) r := by
  obtain ⟨r, hquery, hr⟩ := exists_neighbourhood hg
    { relations := [.calls, .uses], outgoing := true } hnode
  refine ⟨r, hquery, hr.congr rfl rfl fun e => ?_⟩
  simp [IsDependency, Direction.anchor]

/-- The second neighbourhood is asked of a graph with more identifiers filled in than the first,
and gives the same. -/
theorem exists_hierarchy :
    ∃ r, g.hierarchy id =
        (.ok r, (g.fillSelected { relations := [.inherits], outgoing := false } id).fillSelected
          { relations := [.inherits], outgoing := true } id) ∧
      g.IsPart id (IsInheritance id) r := by
  let inward : Direction := { relations := [.inherits], outgoing := false }
  let outward : Direction := { relations := [.inherits], outgoing := true }
  obtain ⟨reaching, hreaching, hpartReaching⟩ := exists_neighbourhood hg inward hnode
  obtain ⟨leaving, hleaving, hpartLeaving⟩ :=
    exists_neighbourhood (hg.fillSelected inward id) outward hnode
  -- the second graph has more identifiers, but not once all of them are filled in
  have hpartLeaving := hpartLeaving.congr (g := g) rfl
    (fillSelected_spec hg.toOfStrings inward id).2 fun _ => Iff.rfl
  obtain ⟨r, hunion, hr⟩ := exists_union hg hpartReaching hpartLeaving
  refine ⟨r, ?_, hr.congr rfl rfl fun e => ?_⟩
  · simp only [hierarchy, inward, outward] at hreaching hleaving ⊢
    simp only [hreaching, hleaving, hunion]
  · simp only [inward, outward, IsInheritance, Direction.anchor, List.mem_singleton]
    tauto

end

/-- What is not a node has nothing around it. -/
theorem queries_of_not_node (hg : g.WellIdentified) (hnone : ∀ n ∈ g.nodes, n.id ≠ id) :
    g.dependencies id = (.ok {}, g) ∧ g.hierarchy id = (.ok {}, g) := by
  have hneighbourhood : ∀ d, g.neighbourhood d id = (.ok {}, g) := by
    intro d
    simp only [neighbourhood, (node?_eq_none_iff hg).mpr hnone]
  refine ⟨hneighbourhood _, ?_⟩
  simp only [hierarchy, hneighbourhood]
  have hunion : union {} {} = .ok {} := by
    simp [union, checkKeys, putRecords, ordered, EdgeRecord.fillIds, sortByKey,
      sortBy?, allStrings]
  rw [hunion]

theorem IsPart.fillSelected_eq (hg : g.WellIdentified) (hr : g.IsPart id property r)
    (d : Direction) : r.fillSelected d id = r := by
  have hfixed : ∀ e ∈ r.edges, (if d.selects id e then e.identified else e) = e := by
    intro e he
    rw [hr.identified_eq hg he, ite_self]
  rw [fillSelected, (List.map_congr_left hfixed).trans (List.map_id r.edges)]

/-- The node asked about is in the part. -/
theorem IsPart.exists_node (hr : g.IsPart id property r) (hnode : ∃ n ∈ g.nodes, n.id = id) :
    ∃ n ∈ r.nodes, n.id = id := by
  obtain ⟨n, hn, hid⟩ := hnode
  exact ⟨n, (hr.nodes n).mpr ⟨hn, Or.inl hid⟩, hid⟩

theorem wellIdentified_empty : WellIdentified {} :=
  ⟨⟨List.forall_mem_nil _, List.forall_mem_nil _⟩, List.nodup_nil, List.nodup_nil⟩

/-- The answer to a question about an identifier: empty if no node has it, and else the part
that the edges with a property make up. -/
structure IsAnswer (g : GraphRecord) (id : Json) (property : EdgeRecord → Prop)
    (r : GraphRecord) :
    Prop where
  empty : (∀ n ∈ g.nodes, n.id ≠ id) → r = {}
  part : (∃ n ∈ g.nodes, n.id = id) → g.IsPart id property r

theorem IsAnswer.of_part (hnode : ∃ n ∈ g.nodes, n.id = id) (hr : g.IsPart id property r) :
    g.IsAnswer id property r where
  empty hnone := by
    obtain ⟨n, hn, hid⟩ := hnode
    exact absurd hid (hnone n hn)
  part _ := hr

theorem IsAnswer.of_not_node (hnone : ∀ n ∈ g.nodes, n.id ≠ id) :
    g.IsAnswer id property {} where
  empty _ := rfl
  part hnode := by
    obtain ⟨n, hn, hid⟩ := hnode
    exact absurd hid (hnone n hn)

/-- In a graph whose nodes have distinct identifiers, and whose edges have once identifiers are
filled in, the dependencies are made up of the edges by which a node calls or uses something,
and the hierarchy of the edges by which it inherits or is inherited from. The same question
asked of either answer gives that answer and changes no identifier. -/
theorem queries_exact_and_repeatable (g : GraphRecord) (hg : g.WellIdentified) (id : Json) :
    (∃ r, (g.dependencies id).1 = .ok r ∧ g.IsAnswer id (IsDependency id) r ∧
      r.dependencies id = (.ok r, r)) ∧
    ∃ r, (g.hierarchy id).1 = .ok r ∧ g.IsAnswer id (IsInheritance id) r ∧
      r.hierarchy id = (.ok r, r) := by
  by_cases hnode : ∃ n ∈ g.nodes, n.id = id
  · constructor
    · obtain ⟨r, hquery, hr⟩ := exists_dependencies hg hnode
      -- the answer to the second question is a part of the first answer, as that is of itself
      obtain ⟨r', hagain, hr'⟩ :=
        exists_dependencies (hr.wellIdentified hg) (hr.exists_node hnode)
      obtain rfl : r = r' := (hr.self hg).unique hr'
      rw [hr.fillSelected_eq hg] at hagain
      exact ⟨r, congrArg Prod.fst hquery, .of_part hnode hr, hagain⟩
    · obtain ⟨r, hquery, hr⟩ := exists_hierarchy hg hnode
      obtain ⟨r', hagain, hr'⟩ := exists_hierarchy (hr.wellIdentified hg) (hr.exists_node hnode)
      obtain rfl : r = r' := (hr.self hg).unique hr'
      rw [hr.fillSelected_eq hg, hr.fillSelected_eq hg] at hagain
      exact ⟨r, congrArg Prod.fst hquery, .of_part hnode hr, hagain⟩
  · have hnone : ∀ n ∈ g.nodes, n.id ≠ id := fun n hn hid => hnode ⟨n, hn, hid⟩
    obtain ⟨hdependencies, hhierarchy⟩ := queries_of_not_node hg hnone
    have hempty : ∀ n ∈ ({} : GraphRecord).nodes, n.id ≠ id := List.forall_mem_nil _
    obtain ⟨hagain, hagain'⟩ := queries_of_not_node wellIdentified_empty hempty
    exact ⟨⟨{}, congrArg Prod.fst hdependencies, .of_not_node hnone, hagain⟩,
      ⟨{}, congrArg Prod.fst hhierarchy, .of_not_node hnone, hagain'⟩⟩

/-- A class that inherits from itself, by an edge without identifier, and calls what is no
node. -/
def looseGraph : GraphRecord :=
  { nodes :=
      [{ id := ofString "b", label := .null, kind := .function },
       { id := ofString "a", label := .null, kind := .class_ }]
    edges :=
      [{ id := ofString "y", source := ofString "a", target := ofString "b"
         relation := .uses },
       { id := .str [], source := ofString "a", target := ofString "a", relation := .inherits },
       { id := .str [], source := ofString "a", target := ofString "d", relation := .calls }] }

/-- The hierarchy of the class is the class and the edge from it to itself, once. What it calls
has no dependencies. -/
theorem queries_exact_and_repeatable_looseGraph :
    looseGraph.WellIdentified ∧
    (∃ r, (looseGraph.hierarchy (ofString "a")).1 = .ok r ∧
      r.edges.map EdgeRecord.id = [ofString "a|inherits|a"] ∧
      (∀ n ∈ r.nodes, n.id = ofString "a") ∧ r.hierarchy (ofString "a") = (.ok r, r)) ∧
    (looseGraph.dependencies (ofString "d")).1 = .ok {} := by
  have hg : looseGraph.WellIdentified := by
    refine ⟨⟨?_, ?_⟩, by decide +kernel, by decide +kernel⟩
    · simp [looseGraph, ofString, text]
    · simp only [looseGraph, List.forall_mem_cons]
      exact ⟨⟨⟨_, rfl⟩, ⟨_, rfl⟩, ⟨_, rfl⟩⟩, ⟨⟨_, rfl⟩, ⟨_, rfl⟩, ⟨_, rfl⟩⟩,
        ⟨⟨_, rfl⟩, ⟨_, rfl⟩, ⟨_, rfl⟩⟩, List.forall_mem_nil _⟩
  obtain ⟨-, r, hquery, hanswer, hagain⟩ :=
    queries_exact_and_repeatable looseGraph hg (ofString "a")
  obtain ⟨⟨none, hqueryNone, hanswerNone, -⟩, -⟩ :=
    queries_exact_and_repeatable looseGraph hg (ofString "d")
  have hpart := hanswer.part (by decide +kernel)
  have hfilter : looseGraph.filled.edges.filter (IsInheritance (ofString "a")) =
      [{ id := ofString "a|inherits|a", source := ofString "a", target := ofString "a"
         relation := .inherits }] := by
    decide +kernel
  have hedges := hpart.edgesAscend.eq_of_mem_iff (List.pairwise_singleton _ _) fun e => by
    rw [hpart.edges, ← hfilter, List.mem_filter, decide_eq_true_iff]
  refine ⟨hg, ⟨r, hquery, by rw [hedges]; rfl, fun n hn => ?_, hagain⟩,
    hanswerNone.empty (by decide +kernel) ▸ hqueryNone⟩
  rcases (hpart.nodes n).mp hn with ⟨-, hid | ⟨e, he, hend⟩⟩
  · exact hid
  · rw [hedges, List.mem_singleton] at he
    rw [he, or_self] at hend
    exact hend

end GraphRecord

end SymbolGraph
