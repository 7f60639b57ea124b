import Mathlib.Algebra.BigOperators.Group.List.Basic
import Mathlib.Algebra.GroupWithZero.Nat
import Mathlib.Data.List.Dedup
import Mathlib.Data.List.Perm.Basic
import SymbolGraph.Proofs.Draft.Change
import SymbolGraph.Proofs.Draft.Tally
set_option autoImplicit false

/-!
# Weights count references

The references of some outlines are listed without regard to how a draft is made: one for each
thing that is declared, one for each distinct module that a file imports, one for each call site
and one for each base class, where calls and base classes are resolved by the tables as they
stand after all declarations. A graph has one edge for each link among them, and the weight of
the edge is the number of references that are that link (`edges_count_references`).
-/

namespace SymbolGraph

/-! ## The references of outlines -/

namespace Outline

/-- The references by which a module defines its classes, functions and variables, and a class
its methods. -/
def definitions (o : Outline) : List Link :=
  o.classes.flatMap (fun c => ⟨moduleId o.moduleName, .defines, (c.node o).id⟩ ::
      c.methods.map fun f => ⟨(c.node o).id, .defines, (f.node o (some c.name)).id⟩)
    ++ o.functions.map (fun f => ⟨moduleId o.moduleName, .defines, (f.node o none).id⟩)
    ++ o.globals.map (fun v => ⟨moduleId o.moduleName, .defines, (v.node o).id⟩)

/-- The names of the modules that a file imports, each once, without the empty name. -/
def importNames (o : Outline) : List Text :=
  (o.imports.flatMap ImportDecl.modules).dedup.filter (· ≠ [])

/-- The references by which a module imports others. -/
def importLinks (o : Outline) : List Link :=
  o.importNames.map fun name => ⟨moduleId o.moduleName, .imports, externalId .module_ name⟩

/-- The reference of a call from `source`. -/
def callLink (names : Names) (o : Outline) (source : Text) (within : Option Text)
    (c : CallSite) : Link :=
  let t := names.callTarget o.moduleName c.name within o.aliases
  ⟨source, t.callRelation, t.id⟩

/-- The references by which functions and methods call others. -/
def callLinks (names : Names) (o : Outline) : List Link :=
  o.functions.flatMap (fun f => f.calls.map (o.callLink names (Draft.functionSource o f) none))
    ++ o.classes.flatMap (fun c => c.methods.flatMap fun f =>
      f.calls.map (o.callLink names (Draft.methodSource o c f) (some c.name)))

/-- The references by which classes inherit from their bases. -/
def baseLinks (names : Names) (o : Outline) : List Link :=
  o.classes.flatMap fun c => (c.bases.filter ('=' ∉ ·)).map fun base =>
    ⟨(names.baseTarget o.moduleName base).id, .inherits, (c.node o).id⟩

/-- The call sites of all functions and methods. -/
def callSites (o : Outline) : List CallSite :=
  o.functions.flatMap FunctionDecl.calls
    ++ o.classes.flatMap (fun c => c.methods.flatMap FunctionDecl.calls)

end Outline

/-- The references of some outlines. -/
def references (os : List Outline) : List Link :=
  let names := Draft.declaredNames os
  os.flatMap Outline.definitions ++ os.flatMap Outline.importLinks
    ++ os.flatMap (Outline.callLinks names) ++ os.flatMap (Outline.baseLinks names)

/-! ## Changes refer to what is listed -/

namespace Draft

/-- The changes that declare an outline count its definitions. -/
theorem links_declareChanges (o : Outline) :
    (declareChanges o).filterMap Change.link? = o.definitions := by
  simp [declareChanges, classChanges, methodChanges, functionChanges, variableChanges,
    Change.link?, List.filterMap_cons, List.filterMap_flatMap, List.map_eq_flatMap,
    Outline.definitions]

/-- Leaving out what occurs a second time leaves each item once. -/
theorem nodup_eraseDups {α : Type} [BEq α] [LawfulBEq α] (as : List α) :
    as.eraseDups.Nodup := by
  induction h : as.length using Nat.strongRecOn generalizing as with
  | ind n ih =>
      cases as with
      | nil => simp
      | cons a as =>
          have hshorter : (as.filter fun b => !b == a).length < n := by
            have hle := List.length_filter_le (fun b => !b == a) as
            simp only [List.length_cons] at h
            omega
          rw [List.eraseDups_cons, List.nodup_cons]
          refine ⟨?_, ih _ hshorter _ rfl⟩
          rw [List.mem_eraseDups]
          simp

/-- The modules that are linked are those that are imported, each once. -/
theorem importedModules_perm (o : Outline) : o.importedModules.Perm o.importNames := by
  refine (List.mergeSort_perm _ _).trans (List.Perm.filter _ ?_)
  refine (List.perm_ext_iff_of_nodup (nodup_eraseDups _) (List.nodup_dedup _)).mpr ?_
  intro name
  rw [List.mem_eraseDups, List.mem_dedup]

@[simp] theorem links_targetChanges (t : Target) :
    (targetChanges t).filterMap Change.link? = [] := by
  cases t <;> rfl

@[simp] theorem links_callChanges (names : Names) (o : Outline) (source : Text)
    (within : Option Text) (c : CallSite) :
    (callChanges names o source within c).filterMap Change.link? =
      [o.callLink names source within c] := by
  simp [callChanges, Change.link?, Outline.callLink, callee]

@[simp] theorem links_baseChanges (names : Names) (o : Outline) (c : ClassDecl) (base : Text) :
    (baseChanges names o c base).filterMap Change.link? =
      [⟨(names.baseTarget o.moduleName base).id, .inherits, (c.node o).id⟩] := by
  simp [baseChanges, Change.link?]

theorem baseNames_eq_filter (c : ClassDecl) : baseNames c = c.bases.filter ('=' ∉ ·) := by
  simp [baseNames]

/-- The changes that link an outline count its imports, its calls and its bases. -/
theorem links_linkChanges (names : Names) (o : Outline) :
    ((linkChanges names o).filterMap Change.link?).Perm
      (o.importLinks ++ o.callLinks names ++ o.baseLinks names) := by
  have himports : (o.importedModules.flatMap fun name =>
      (importChanges o name).filterMap Change.link?).Perm o.importLinks := by
    simp only [importChanges, Change.link?, List.filterMap_cons, List.filterMap_nil,
      ← List.map_eq_flatMap]
    exact (importedModules_perm o).map _
  have hcalls :
      (o.functions.flatMap fun f => (functionCallChanges names o f).filterMap Change.link?)
      ++ (o.classes.flatMap fun c => c.methods.flatMap fun f =>
        (methodCallChanges names o c f).filterMap Change.link?) = o.callLinks names := by
    simp only [functionCallChanges, methodCallChanges, List.filterMap_flatMap,
      links_callChanges, ← List.map_eq_flatMap, Outline.callLinks]
  have hbases : (o.classes.flatMap fun c => (baseNames c).flatMap fun base =>
      (baseChanges names o c base).filterMap Change.link?) = o.baseLinks names := by
    simp only [links_baseChanges, ← List.map_eq_flatMap, baseNames_eq_filter, Outline.baseLinks]
  simp only [linkChanges, List.filterMap_append, List.filterMap_flatMap, List.filterMap_cons,
    Change.link?, List.filterMap_nil, List.append_nil, hbases]
  rw [List.append_assoc (o.importedModules.flatMap _), hcalls]
  exact (himports.append_right _).append_right _

/-- The changes that build a draft count the references of the outlines. -/
theorem links_buildChanges (os : List Outline) :
    ((buildChanges os).filterMap Change.link?).Perm (references os) := by
  have hlinked := List.Perm.flatMap_left os fun o _ => links_linkChanges (declaredNames os) o
  simp only [buildChanges, List.filterMap_append, List.filterMap_flatMap, links_declareChanges]
  refine (hlinked.append_left _).trans ?_
  rw [references, List.append_assoc, List.append_assoc]
  refine List.Perm.append_left _ ?_
  refine (List.flatMap_append_perm os _ _).symm.trans ?_
  refine ((List.flatMap_append_perm os _ _).symm.append_right _).trans ?_
  exact List.Perm.of_eq (List.append_assoc _ _ _)

/-! ## Weights of a draft -/

/-- A replay counts the references among its changes, and nothing else. -/
theorem weights_replay (d : Draft) (cs : List Change) :
    (d.replay cs).weights = countLinks d.weights (cs.filterMap Change.link?) := by
  induction cs generalizing d with
  | nil => rfl
  | cons c cs ih =>
      rw [replay_cons, ih]
      cases c <;> rfl

/-- The weights of a draft tally the references of its outlines. -/
theorem tallies_build (os : List Outline) : Tallies (build os).weights (references os) := by
  have hcounted := tallies_countLinks ((buildChanges os).filterMap Change.link?)
  rw [build_eq_replay, weights_replay]
  refine ⟨hcounted.nodup, fun l => ?_⟩
  rw [← (links_buildChanges os).count_eq l]
  exact hcounted.get?_eq l

theorem totalWeight_build (p : Link → Bool) (os : List Outline) :
    totalWeight p (build os).weights = (references os).countP p := by
  rw [build_eq_replay, weights_replay, ← (links_buildChanges os).countP_eq p]
  exact totalWeight_countLinks p _

/-- The edges of a draft's graph are its links with their weights. -/
theorem edges_perm (d : Draft) : d.graph.edges.Perm (d.weights.map fun (l, n) => Edge.mk l n) :=
  List.mergeSort_perm _ _

end Draft

/-! ## Edges of a graph -/

/-- The reference is a call of something declared or a use of something outside. -/
def Link.isCall (l : Link) : Bool := l.relation = .calls ∨ l.relation = .uses

/-- The edges for one link, by the weights of the draft. -/
theorem edges_filter_link (os : List Outline) (l : Link) :
    (Graph.build os).edges.filter (fun e => e.link = l) =
      if (references os).count l = 0 then [] else [⟨l, (references os).count l⟩] := by
  have hperm := (Draft.edges_perm (Draft.build os)).filter fun e => e.link = l
  have hentries := filter_key_eq (Draft.tallies_build os).nodup l
  rw [List.filter_map] at hperm
  have hsame : (Draft.build os).weights.filter ((fun e : Edge => decide (e.link = l)) ∘
      fun (l, n) => Edge.mk l n) = (Draft.build os).weights.filter fun entry => entry.1 = l :=
        rfl
  rw [hsame, hentries, (Draft.tallies_build os).get?_eq] at hperm
  by_cases hzero : (references os).count l = 0
  · rw [if_pos hzero] at hperm ⊢
    exact List.perm_nil.mp hperm
  · rw [if_neg hzero] at hperm ⊢
    exact List.perm_singleton.mp hperm

/-- The edges of a graph are the links that occur, each with the number of its occurrences. -/
theorem mem_edges_iff (os : List Outline) (e : Edge) :
    e ∈ (Graph.build os).edges ↔ 0 < e.weight ∧ (references os).count e.link = e.weight := by
  have hmem : e ∈ (Graph.build os).edges ↔
      e ∈ (Graph.build os).edges.filter fun d => d.link = e.link := by
    simp [List.mem_filter]
  rw [hmem, edges_filter_link]
  split
  · next hzero =>
    rw [hzero]
    exact ⟨fun h => absurd h List.not_mem_nil, fun h => absurd h.2 (Nat.ne_of_lt h.1)⟩
  · next hpos =>
    rw [List.mem_singleton]
    constructor
    · intro heq
      have hweight : e.weight = (references os).count e.link := congrArg Edge.weight heq
      exact ⟨hweight ▸ Nat.pos_of_ne_zero hpos, hweight.symm⟩
    · rintro ⟨-, hweight⟩
      rw [hweight]

/-- The links of a graph's edges are the references. -/
theorem mem_references_iff (os : List Outline) (l : Link) :
    l ∈ references os ↔ ∃ e ∈ (Graph.build os).edges, e.link = l := by
  constructor
  · intro hl
    exact ⟨⟨l, _⟩, (mem_edges_iff os _).mpr ⟨List.count_pos_iff.mpr hl, rfl⟩, rfl⟩
  · rintro ⟨e, he, rfl⟩
    obtain ⟨hpos, hcount⟩ := (mem_edges_iff os e).mp he
    rw [← List.count_pos_iff, hcount]
    exact hpos

/-! ## Relations of references -/

namespace Outline

theorem relation_of_mem_definitions {o : Outline} {l : Link} (hl : l ∈ o.definitions) :
    l.relation = .defines := by
  simp only [definitions, List.mem_append, List.mem_map, List.mem_flatMap, List.mem_cons] at hl
  obtain (⟨c, -, rfl | ⟨f, -, rfl⟩⟩ | ⟨f, -, rfl⟩) | ⟨v, -, rfl⟩ := hl <;> rfl

theorem relation_of_mem_importLinks {o : Outline} {l : Link} (hl : l ∈ o.importLinks) :
    l.relation = .imports := by
  obtain ⟨name, -, rfl⟩ := List.mem_map.mp hl
  rfl

theorem relation_of_mem_baseLinks {names : Names} {o : Outline} {l : Link}
    (hl : l ∈ o.baseLinks names) : l.relation = .inherits := by
  simp only [baseLinks, List.mem_flatMap, List.mem_map] at hl
  obtain ⟨c, -, base, -, rfl⟩ := hl
  rfl

theorem isCall_callLink (names : Names) (o : Outline) (source : Text) (within : Option Text)
    (c : CallSite) : (o.callLink names source within c).isCall = true := by
  have hrelation : ∀ t : Target, t.callRelation = .calls ∨ t.callRelation = .uses := by
    intro t
    cases t with
    | declared id => exact Or.inl rfl
    | external kind name => exact Or.inr rfl
  exact decide_eq_true (hrelation _)

theorem isCall_of_mem_callLinks {names : Names} {o : Outline} {l : Link}
    (hl : l ∈ o.callLinks names) : l.isCall = true := by
  simp only [callLinks, List.mem_append, List.mem_flatMap, List.mem_map] at hl
  obtain ⟨f, -, c, -, rfl⟩ | ⟨d, -, f, -, c, -, rfl⟩ := hl
  · exact isCall_callLink names o _ none c
  · exact isCall_callLink names o _ _ c

/-- There is one call link for each call site. -/
theorem length_callLinks (names : Names) (o : Outline) :
    (o.callLinks names).length = o.callSites.length := by
  simp only [callLinks, callSites, List.length_append, List.length_flatMap, List.length_map]

end Outline

/-- Where no reference of one sort has a property, none of all outlines has. -/
theorem countP_flatMap_eq_zero {links : Outline → List Link} {p : Link → Bool}
    (hnone : ∀ o, ∀ l ∈ links o, p l = false) (os : List Outline) :
    (os.flatMap links).countP p = 0 := by
  refine List.countP_eq_zero.mpr ?_
  intro l hl
  obtain ⟨o, -, hlo⟩ := List.mem_flatMap.mp hl
  rw [hnone o l hlo]
  exact Bool.false_ne_true

/-- Among the references, the calls and uses are as many as the call sites. -/
theorem countP_isCall_references (os : List Outline) :
    (references os).countP Link.isCall = (os.flatMap Outline.callSites).length := by
  have hdefinitions : (os.flatMap Outline.definitions).countP Link.isCall = 0 := by
    refine countP_flatMap_eq_zero (fun o l hl => ?_) os
    simp [Link.isCall, Outline.relation_of_mem_definitions hl]
  have himports : (os.flatMap Outline.importLinks).countP Link.isCall = 0 := by
    refine countP_flatMap_eq_zero (fun o l hl => ?_) os
    simp [Link.isCall, Outline.relation_of_mem_importLinks hl]
  have hbases : (os.flatMap (Outline.baseLinks (Draft.declaredNames os))).countP Link.isCall =
      0 := by
    refine countP_flatMap_eq_zero (fun o l hl => ?_) os
    simp [Link.isCall, Outline.relation_of_mem_baseLinks hl]
  have hcalls : (os.flatMap (Outline.callLinks (Draft.declaredNames os))).countP Link.isCall =
      (os.flatMap (Outline.callLinks (Draft.declaredNames os))).length := by
    refine List.countP_eq_length.mpr ?_
    intro l hl
    obtain ⟨o, -, hlo⟩ := List.mem_flatMap.mp hl
    exact Outline.isCall_of_mem_callLinks hlo
  rw [references, List.countP_append, List.countP_append, List.countP_append, hdefinitions,
    himports, hcalls, hbases]
  simp only [List.length_flatMap, Outline.length_callLinks, Nat.zero_add, Nat.add_zero]

/-! ## Exact counting -/

/-- Every link has an edge if and only if references are that link, then exactly one, and its
weight is the number of these references. So the weights of the edges by which things are called
or used add up to the number of call sites. -/
theorem edges_count_references (os : List Outline) :
    (∀ (s : Text) (r : Relation) (t : Text),
      (Graph.build os).edges.filter (fun e => e.link = ⟨s, r, t⟩) =
        if (references os).count ⟨s, r, t⟩ = 0 then []
        else [⟨⟨s, r, t⟩, (references os).count ⟨s, r, t⟩⟩]) ∧
    (((Graph.build os).edges.filter fun e => e.link.isCall).map Edge.weight).sum =
      (os.flatMap Outline.callSites).length := by
  refine ⟨fun s r t => edges_filter_link os ⟨s, r, t⟩, ?_⟩
  have hperm :=
    ((Draft.edges_perm (Draft.build os)).filter fun e => e.link.isCall).map Edge.weight
  calc (((Graph.build os).edges.filter fun e => e.link.isCall).map Edge.weight).sum
      = totalWeight Link.isCall (Draft.build os).weights := by
        refine hperm.sum_eq.trans ?_
        rw [List.filter_map, List.map_map]
        rfl
    _ = (references os).countP Link.isCall := Draft.totalWeight_build Link.isCall os
    _ = (os.flatMap Outline.callSites).length := countP_isCall_references os

end SymbolGraph
