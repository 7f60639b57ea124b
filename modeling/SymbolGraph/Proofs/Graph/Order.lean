import Mathlib.Data.List.Nodup
import SymbolGraph.Proofs.Draft.Closure
import SymbolGraph.Proofs.Graph.Identifier
import SymbolGraph.Proofs.Text.Order
set_option autoImplicit false

/-!
# Identifiers in order

The nodes and the edges of a graph are in strictly ascending order of their identifiers. For
nodes that is because a draft holds no identifier twice. For edges it takes more: a draft holds
no link twice, and two links have different identifiers only because no end of a link holds a
bar, whatever the names are that it was made of.
-/

namespace SymbolGraph

open Draft

/-! ## No identifier holds a bar -/

/-- The identifiers of all nodes that outlines mention are made as identifiers are. -/
theorem exists_nodeId_of_mentioned {os : List Outline} {n : Node} (hn : n ∈ mentionedNodes os) :
    ∃ scope kind name line, n.id = nodeId scope kind name line := by
  simp only [mentionedNodes, List.mem_append, List.mem_flatMap] at hn
  obtain ⟨o, -, hdeclared⟩ | ⟨o, -, hplaceholder⟩ := hn
  · simp only [Outline.declaredNodes, List.mem_cons, List.mem_append, List.mem_flatMap,
      List.mem_map] at hdeclared
    obtain rfl | (⟨c, -, rfl | ⟨f, -, rfl⟩⟩ | ⟨f, -, rfl⟩) | ⟨v, -, rfl⟩ := hdeclared <;>
      exact ⟨_, _, _, _, rfl⟩
  · simp only [Outline.placeholders, List.mem_append, List.mem_map,
      List.mem_filterMap] at hplaceholder
    obtain ⟨name, -, rfl⟩ | ⟨t, -, ht⟩ := hplaceholder
    · exact ⟨_, _, _, _, rfl⟩
    · cases t with
      | declared id => exact absurd ht.symm (Option.some_ne_none n)
      | external kind name =>
          rw [← Option.some.inj ht]
          exact ⟨_, _, _, _, rfl⟩

theorem barFree_of_mentioned {os : List Outline} {id : Text}
    (hid : id ∈ (mentionedNodes os).map Node.id) : '|' ∉ id := by
  obtain ⟨n, hn, rfl⟩ := List.mem_map.mp hid
  obtain ⟨scope, kind, name, line, heq⟩ := exists_nodeId_of_mentioned hn
  rw [heq]
  exact nodeId_barFree scope kind name line

/-- The ends of every reference hold no bar. -/
theorem barFree_of_reference {os : List Outline} {l : Link} (hl : l ∈ references os) :
    l.BarFree := by
  constructor
  · obtain hsource | ⟨o, -, c, -, -, f, -, -, hsource⟩ := mentioned_source_of_reference hl
    · exact barFree_of_mentioned hsource
    · rw [hsource]
      exact nodeId_barFree _ _ _ _
  · exact barFree_of_mentioned (mentioned_target_of_reference hl)

theorem barFree_of_edge {os : List Outline} {e : Edge} (he : e ∈ (Graph.build os).edges) :
    e.link.BarFree :=
  barFree_of_reference ((mem_references_iff os e.link).mpr ⟨e, he, rfl⟩)

/-! ## The order of a graph -/

/-- A draft's edges have distinct identifiers. -/
theorem nodup_edgeIds (os : List Outline) :
    (((build os).weights.map fun (l, n) => Edge.mk l n).map Edge.id).Nodup := by
  have hlinks : (((build os).weights.map fun (l, n) => Edge.mk l n).map Edge.link).Nodup := by
    rw [List.map_map]
    exact (tallies_build os).nodup
  have hids := List.Nodup.map_on (f := Link.id) (l := ((build os).weights.map
    fun (l, n) => Edge.mk l n).map Edge.link) ?_ hlinks
  · rwa [List.map_map] at hids
  · have hfree : ∀ l ∈ ((build os).weights.map fun (l, n) => Edge.mk l n).map Edge.link,
        l.BarFree := by
      intro l hl
      obtain ⟨e, he, rfl⟩ := List.mem_map.mp hl
      exact barFree_of_edge ((edges_perm (build os)).mem_iff.mpr he)
    intro l hl l' hl' heq
    exact Link.eq_of_id_eq (hfree l hl) (hfree l' hl') heq

theorem nodes_ascending (os : List Outline) :
    ((Graph.build os).nodes.map Node.id).Pairwise (· < ·) :=
  pairwise_lt_mergeSort Node.id (nodup_ids_build os)

theorem edges_ascending (os : List Outline) :
    ((Graph.build os).edges.map Edge.id).Pairwise (· < ·) :=
  pairwise_lt_mergeSort Edge.id (nodup_edgeIds os)

/-- Nodes and edges are in strictly ascending order of their identifiers, no identifier of a
node holds a bar, and the identifier of an edge is split at its bars into source, relation and
target. -/
theorem ids_ascending_and_split (os : List Outline) :
    ((Graph.build os).nodes.map Node.id).Pairwise (· < ·) ∧
    ((Graph.build os).edges.map Edge.id).Pairwise (· < ·) ∧
    (∀ n ∈ (Graph.build os).nodes, '|' ∉ n.id) ∧
    (∀ e ∈ (Graph.build os).edges,
      Text.split '|' e.id = [e.link.source, e.link.relation.word, e.link.target]) := by
  refine ⟨?_, ?_, ?_, ?_⟩
  · exact pairwise_lt_mergeSort Node.id (nodup_ids_build os)
  · exact pairwise_lt_mergeSort Edge.id (nodup_edgeIds os)
  · intro n hn
    exact barFree_of_mentioned ((mem_ids_graph n.id os).mp (List.mem_map_of_mem hn))
  · intro e he
    exact Link.split_id (barFree_of_edge he)

end SymbolGraph
