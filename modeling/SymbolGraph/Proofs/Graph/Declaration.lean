import SymbolGraph.Proofs.Graph.Order
import SymbolGraph.Proofs.Outline.Entity
import SymbolGraph.Proofs.Outline.Source
set_option autoImplicit false

/-!
# The declarations of files in their graph

Files whose modules have distinct names without a colon have a graph that holds what they
declare as it is declared: one unmarked node for each entity, and one `defines` edge of weight 1
for each entity but the modules, from what declares it.
-/

namespace SymbolGraph

open Draft

/-! ## Outlines of files -/

theorem regular_of_mem_outlines {options : ReadingOptions} {files : List SourceFile}
    {os : List Outline} (houtlines : outlines options files = .ok os) {o : Outline}
    (ho : o ∈ os) : o.Regular := by
  have hread := outlines_forall₂ houtlines
  clear houtlines
  induction hread with
  | nil => exact absurd ho List.not_mem_nil
  | cons houtline _ ih =>
      obtain rfl | ho := List.mem_cons.mp ho
      · obtain ⟨reading, content, -, rfl⟩ := exists_read_of_outline houtline
        exact regular_read reading _ _ content
      · exact ih ho

theorem exists_file_of_mem_outlines {options : ReadingOptions} {files : List SourceFile}
    {os : List Outline} (houtlines : outlines options files = .ok os) {o : Outline}
    (ho : o ∈ os) : ∃ f ∈ files, moduleNameOf f.name = o.moduleName := by
  have hnames := congrArg (List.map Prod.fst) (names_outlines houtlines)
  rw [List.map_map, List.map_map] at hnames
  exact List.mem_map.mp (hnames ▸ List.mem_map_of_mem ho)

/-- No module has a bar in its name, whatever its file is called. -/
theorem barFree_of_mem_outlines {options : ReadingOptions} {files : List SourceFile}
    {os : List Outline} (houtlines : outlines options files = .ok os) {o : Outline}
    (ho : o ∈ os) : '|' ∉ o.moduleName := by
  obtain ⟨f, -, hname⟩ := exists_file_of_mem_outlines houtlines ho
  rw [← hname]
  exact Text.not_mem_replaceChar (by decide) _

theorem plain_of_mem_outlines {options : ReadingOptions} {files : List SourceFile}
    {os : List Outline} (houtlines : outlines options files = .ok os)
    (hcolon : ∀ f ∈ files, ':' ∉ moduleNameOf f.name) {o : Outline} (ho : o ∈ os) :
    Plain o.moduleName := by
  obtain ⟨f, hf, hname⟩ := exists_file_of_mem_outlines houtlines ho
  exact ⟨hname ▸ hcolon f hf, barFree_of_mem_outlines houtlines ho⟩

theorem wellSeparated_outlines {options : ReadingOptions} {files : List SourceFile}
    {os : List Outline} (houtlines : outlines options files = .ok os)
    (hdistinct : (files.map fun f => moduleNameOf f.name).Nodup)
    (hcolon : ∀ f ∈ files, ':' ∉ moduleNameOf f.name) : WellSeparated os := by
  have hnames := congrArg (List.map Prod.fst) (names_outlines houtlines)
  rw [List.map_map, List.map_map] at hnames
  exact ⟨fun o => regular_of_mem_outlines houtlines,
    fun o => plain_of_mem_outlines houtlines hcolon, hnames ▸ hdistinct⟩

/-! ## Definitions are counted once -/

/-- The references that define something are the definitions. -/
theorem count_references_defines {os : List Outline} {l : Link} (hl : l.relation = .defines) :
    (references os).count l = (os.flatMap Outline.definitions).count l := by
  have hother : ∀ {k : Link}, k.relation ≠ .defines → (k == l) = false := by
    intro k hk
    rw [beq_eq_false_iff_ne]
    rintro rfl
    exact hk hl
  have himports : (os.flatMap Outline.importLinks).count l = 0 := by
    refine countP_flatMap_eq_zero (fun o k hk => hother ?_) os
    simp [Outline.relation_of_mem_importLinks hk]
  have hcalls : (os.flatMap (Outline.callLinks (declaredNames os))).count l = 0 := by
    refine countP_flatMap_eq_zero (fun o k hk => hother fun hdefines => ?_) os
    simpa [Link.isCall, hdefines] using Outline.isCall_of_mem_callLinks hk
  have hbases : (os.flatMap (Outline.baseLinks (declaredNames os))).count l = 0 := by
    refine countP_flatMap_eq_zero (fun o k hk => hother ?_) os
    simp [Outline.relation_of_mem_baseLinks hk]
  rw [references, List.count_append, List.count_append, List.count_append, himports,
    hcalls, hbases]
  rfl

namespace WellSeparated

variable {os : List Outline} (hos : WellSeparated os)
include hos

/-- What is defined is what is declared, but for the modules. -/
theorem targets_eq : (os.flatMap Outline.definitions).map Link.target =
    ((os.flatMap Outline.entities).filter fun e => e.kind ≠ .module_).map Entity.id := by
  rw [hos.definitions_eq, ← parts_eq_filter, List.map_map, List.map_map]
  rfl

theorem nodup_targets : ((os.flatMap Outline.definitions).map Link.target).Nodup := by
  rw [hos.targets_eq]
  exact (List.filter_sublist.map Entity.id).nodup hos.nodup_ids

/-- The edges that define something are the definitions, each with weight 1. -/
theorem defines_perm :
    ((Graph.build os).edges.filter fun e => e.link.relation = .defines).Perm
      ((os.flatMap Outline.definitions).map fun l => ⟨l, 1⟩) := by
  have hdefinitions : (os.flatMap Outline.definitions).Nodup :=
    List.Nodup.of_map _ hos.nodup_targets
  have hedges : (Graph.build os).edges.Nodup :=
    List.Nodup.of_map Edge.id (((edges_perm _).map Edge.id).nodup_iff.mpr (nodup_edgeIds os))
  -- neither side repeats an edge, so it is enough to compare members
  refine (List.perm_ext_iff_of_nodup (hedges.filter _) (hdefinitions.map ?_)).mpr ?_
  · exact fun l l' heq => congrArg Edge.link heq
  · intro e
    rw [List.mem_filter, mem_edges_iff, List.mem_map, decide_eq_true_eq]
    constructor
    · rintro ⟨⟨hpos, hweight⟩, hrelation⟩
      rw [count_references_defines hrelation] at hweight
      have hmem : e.link ∈ os.flatMap Outline.definitions := by
        rw [← List.count_pos_iff, hweight]
        exact hpos
      rw [List.count_eq_one_of_mem hdefinitions hmem] at hweight
      exact ⟨e.link, hmem, by rw [hweight]⟩
    · rintro ⟨l, hl, rfl⟩
      obtain ⟨o, -, hlo⟩ := List.mem_flatMap.mp hl
      have hrelation := Outline.relation_of_mem_definitions hlo
      refine ⟨⟨Nat.one_pos, ?_⟩, hrelation⟩
      rw [count_references_defines hrelation, List.count_eq_one_of_mem hdefinitions hl]

/-- The unmarked nodes are those of the entities. -/
theorem nodes_perm :
    (((Graph.build os).nodes.filter fun n => ! n.isExternal).map Node.bare).Perm
    ((os.flatMap Outline.entities).map Entity.node) := by
  have hids : ((os.flatMap Outline.declaredNodes).map Node.id).Nodup :=
    hos.ids_declaredNodes ▸ hos.nodup_ids
  have hout : ∀ n ∈ os.flatMap Outline.declaredNodes, ∀ kind name, n.id ≠
      externalId kind name := by
    intro n hn kind name
    have hid : n.id ∈ (os.flatMap Outline.entities).map Entity.id :=
      hos.ids_declaredNodes ▸ List.mem_map_of_mem hn
    obtain ⟨e, he, heq⟩ := List.mem_map.mp hid
    exact heq ▸ hos.id_ne_externalId he kind name
  have hown := ownNodes_build hids hout
  rw [hos.bare_declaredNodes] at hown
  exact hown ▸ ((Draft.nodes_perm (build os)).filter _).map Node.bare

theorem mem_targets_iff {e : Entity} (he : e ∈ os.flatMap Outline.entities) :
    e.id ∈ (os.flatMap Outline.definitions).map Link.target ↔ e.kind ≠ .module_ := by
  rw [hos.targets_eq, List.mem_map]
  constructor
  · rintro ⟨e', he', heq⟩
    obtain ⟨he', hkind⟩ := List.mem_filter.mp he'
    rw [← List.inj_on_of_nodup_map hos.nodup_ids he' he heq]
    exact of_decide_eq_true hkind
  · intro hkind
    exact ⟨e, List.mem_filter.mpr ⟨he, decide_eq_true hkind⟩, rfl⟩

/-- An entity is defined once, unless it is a module. -/
theorem length_defines {e : Entity} (he : e ∈ os.flatMap Outline.entities) :
    ((Graph.build os).edges.filter fun d =>
      d.link.relation = .defines ∧ d.link.target = e.id).length =
      if e.kind = .module_ then 0 else 1 := by
  have htargets : (((Graph.build os).edges.filter fun d => d.link.relation = .defines).map
      fun d => d.link.target).Perm ((os.flatMap Outline.definitions).map Link.target) := by
    have hperm := hos.defines_perm.map fun d => d.link.target
    rwa [List.map_map] at hperm
  calc ((Graph.build os).edges.filter fun d =>
        d.link.relation = .defines ∧ d.link.target = e.id).length
      = (((Graph.build os).edges.filter fun d => d.link.relation = .defines).map
          fun d => d.link.target).count e.id := by
        rw [List.count_eq_countP, List.countP_map, List.countP_eq_length_filter,
          List.filter_filter]
        refine congrArg List.length (List.filter_congr fun d _ => ?_)
        rw [Bool.decide_and, Bool.and_comm, Function.comp_apply, beq_eq_decide]
    _ = ((os.flatMap Outline.definitions).map Link.target).count e.id := htargets.count_eq e.id
    _ = if e.kind = .module_ then 0 else 1 := by
        rw [hos.nodup_targets.count]
        simp only [hos.mem_targets_iff he, ne_eq, ite_not]

end WellSeparated

/-! ## Faithful declarations -/

/-- Take files whose modules have distinct names without a colon. They have outlines if all have
contents and the length of snippets is an integer. If they have outlines, there is one for each
file, with its module's name and its path; all that they declare has distinct identifiers and
is, by label, kind, path and line, what the unmarked nodes of the graph stand for, one each; the
`defines` edges lead from each module and class to what it declares, with weight 1; and so a
node that stands for a declaration is defined by one edge, a module by none. -/
theorem declarations_faithful (options : ReadingOptions) (files : List SourceFile)
    (hdistinct : (files.map fun f => moduleNameOf f.name).Nodup)
    (hcolon : ∀ f ∈ files, ':' ∉ moduleNameOf f.name) :
    ((∀ f ∈ files, f.content.isSome) → options.snippetLength.integer?.isSome →
      ∃ os, outlines options files = .ok os) ∧
    ∀ os, outlines options files = .ok os →
      os.map (fun o => (o.moduleName, o.filePath)) =
        files.map (fun f => (moduleNameOf f.name, some f.filePath)) ∧
      ((os.flatMap Outline.entities).map Entity.id).Nodup ∧
      (((Graph.build os).nodes.filter fun n => ! n.isExternal).map Node.bare).Perm
        ((os.flatMap Outline.entities).map Entity.node) ∧
      ((Graph.build os).edges.filter fun e => e.link.relation = .defines).Perm
        ((os.flatMap Outline.parts).map fun (whole, part) =>
          ⟨⟨whole.id, .defines, part.id⟩, 1⟩) ∧
      ∀ n ∈ (Graph.build os).nodes, n.isExternal = false →
        ((Graph.build os).edges.filter fun e =>
          e.link.relation = .defines ∧ e.link.target = n.id).length =
          if n.kind = .module_ then 0 else 1 := by
  refine ⟨exists_outlines, ?_⟩
  intro os houtlines
  have hos := wellSeparated_outlines houtlines hdistinct hcolon
  refine ⟨names_outlines houtlines, hos.nodup_ids, hos.nodes_perm, ?_, ?_⟩
  · have hedges := hos.defines_perm
    rwa [hos.definitions_eq, List.map_map] at hedges
  · intro n hn hunmarked
    have hbare : n.bare ∈ (os.flatMap Outline.entities).map Entity.node := by
      refine hos.nodes_perm.mem_iff.mp (List.mem_map_of_mem (List.mem_filter.mpr ⟨hn, ?_⟩))
      rw [hunmarked]
      rfl
    obtain ⟨e, he, heq⟩ := List.mem_map.mp hbare
    have hid : e.id = n.id := congrArg Node.id heq
    have hkind : e.kind = n.kind := congrArg Node.kind heq
    rw [← hid, ← hkind]
    exact hos.length_defines he

/-- A file with a class, its method and a variable, and a file with a function. -/
def twoFiles : List SourceFile :=
  [{ name := "a.py".toList, content := some "class C(B):\n  def m(self): f()\nX = 1".toList },
    { name := "lib/b.py".toList, content := some "def f(): pass".toList }]

/-- The graph of two files, one of which calls and inherits what it does not declare, has six
unmarked nodes. -/
theorem declarations_faithful_twoFiles :
    (twoFiles.map fun f => moduleNameOf f.name).Nodup ∧
    (∀ f ∈ twoFiles, ':' ∉ moduleNameOf f.name) ∧
    ∃ os, outlines ⟨true, .number 40⟩ twoFiles = .ok os ∧
      (((Graph.build os).nodes.filter fun n => ! n.isExternal).map fun n =>
        (n.label, n.line)).Perm
        [("a".toList, some 1), ("C".toList, some 1), ("C.m".toList, some 2),
          ("X".toList, some 3), ("b".toList, some 1), ("f".toList, some 1)] := by
  have hdistinct : (twoFiles.map fun f => moduleNameOf f.name).Nodup := by decide
  have hcolon : ∀ f ∈ twoFiles, ':' ∉ moduleNameOf f.name := by decide
  obtain ⟨hread, hfaithful⟩ :=
    declarations_faithful ⟨true, .number 40⟩ twoFiles hdistinct hcolon
  obtain ⟨os, hos⟩ := hread (by decide) rfl
  obtain ⟨-, -, hnodes, -⟩ := hfaithful os hos
  -- declarations are read by well-founded recursion, which only the kernel unfolds
  have hentities : (outlines ⟨true, .number 40⟩ twoFiles).toOption.map (fun os =>
      (os.flatMap Outline.entities).map fun e => (e.label, some e.line)) =
      some [("a".toList, some 1), ("C".toList, some 1), ("C.m".toList, some 2),
        ("X".toList, some 3), ("b".toList, some 1), ("f".toList, some 1)] := by decide +kernel
  have hlabels := hnodes.map fun n => (n.label, n.line)
  rw [List.map_map, List.map_map] at hlabels
  rw [hos] at hentities
  refine ⟨hdistinct, hcolon, os, hos, ?_⟩
  rw [← Option.some.inj hentities]
  exact hlabels

end SymbolGraph
