import SymbolGraph.Proofs.Assoc
import SymbolGraph.Proofs.Draft.Node
import SymbolGraph.Proofs.Draft.Reference
import SymbolGraph.Proofs.Text.Order
set_option autoImplicit false

/-!
# The tables of names

Each table is filled by the declarations one after the other (`declaredNames_eq`), so that what
a name stands for is told by the entries for it alone. A call in a module looks only at entries
of that module: tables that agree on the module resolve its calls alike
(`AgreeOn.callTarget_eq`). A base class also looks at the classes of all modules, and takes the
least of their identifiers, in whichever order they stand.
-/

namespace SymbolGraph

/-! ## Entries of outlines -/

namespace Change

/-- The entry that a change makes in the table of functions. -/
def function? : Change → Option ((Text × Text) × Text)
  | nameFunction scope name id => some ((scope, name), id)
  | _ => none

/-- The entry that a change makes in the table of classes. -/
def class? : Change → Option ((Text × Text) × Text)
  | nameClass scope name id => some ((scope, name), id)
  | _ => none

/-- The entry that a change makes in the table of methods. -/
def method? : Change → Option ((Text × Text × Text) × Text)
  | nameMethod scope className name id => some ((scope, className, name), id)
  | _ => none

end Change

namespace Outline

/-- The entries of an outline in the table of functions. -/
def functionEntries (o : Outline) : List ((Text × Text) × Text) :=
  o.functions.map fun f => ((o.moduleName, f.name), (f.node o none).id)

/-- The entries of an outline in the table of classes. -/
def classEntries (o : Outline) : List ((Text × Text) × Text) :=
  o.classes.map fun c => ((o.moduleName, c.name), (c.node o).id)

/-- The entries of an outline in the table of methods. -/
def methodEntries (o : Outline) : List ((Text × Text × Text) × Text) :=
  o.classes.flatMap fun c => c.methods.map fun f =>
    ((o.moduleName, c.name, f.name), (f.node o (some c.name)).id)

theorem scope_functionEntries {o : Outline} :
    ∀ entry ∈ o.functionEntries, entry.1.1 = o.moduleName := by
  intro entry hentry
  obtain ⟨f, -, rfl⟩ := List.mem_map.mp hentry
  rfl

theorem scope_classEntries {o : Outline} :
    ∀ entry ∈ o.classEntries, entry.1.1 = o.moduleName := by
  intro entry hentry
  obtain ⟨c, -, rfl⟩ := List.mem_map.mp hentry
  rfl

theorem scope_methodEntries {o : Outline} :
    ∀ entry ∈ o.methodEntries, entry.1.1 = o.moduleName := by
  intro entry hentry
  simp only [methodEntries, List.mem_flatMap, List.mem_map] at hentry
  obtain ⟨c, -, f, -, rfl⟩ := hentry
  rfl

end Outline

namespace Draft

/-- A replay puts the entries of its changes into the tables, one after the other. -/
theorem tables_replay (d : Draft) (cs : List Change) :
    (d.replay cs).toNames =
      { functions := Assoc.putAll d.functions (cs.filterMap Change.function?)
        classes := Assoc.putAll d.classes (cs.filterMap Change.class?)
        methods := Assoc.putAll d.methods (cs.filterMap Change.method?) } := by
  induction cs generalizing d with
  | nil => rfl
  | cons c cs ih =>
      rw [replay_cons, ih]
      cases c <;> rfl

/-- The tables after all declarations hold the entries of the outlines, put in one after the
other. -/
theorem declaredNames_eq (os : List Outline) :
    declaredNames os =
      { functions := Assoc.putAll [] (os.flatMap Outline.functionEntries)
        classes := Assoc.putAll [] (os.flatMap Outline.classEntries)
        methods := Assoc.putAll [] (os.flatMap Outline.methodEntries) } := by
  have hnone : ∀ {β γ : Type} (bs : List β), (bs.flatMap fun _ => ([] : List γ)) = [] := by
    intro β γ bs
    exact List.flatMap_eq_nil_iff.mpr fun _ _ => rfl
  have hfunctions : ∀ o, (declareChanges o).filterMap Change.function? = o.functionEntries := by
    intro o
    simp [declareChanges, classChanges, methodChanges, functionChanges, variableChanges,
      Change.function?, List.filterMap_cons, List.filterMap_flatMap, List.map_eq_flatMap,
      Outline.functionEntries, hnone]
  have hclasses : ∀ o, (declareChanges o).filterMap Change.class? = o.classEntries := by
    intro o
    simp [declareChanges, classChanges, methodChanges, functionChanges, variableChanges,
      Change.class?, List.filterMap_cons, List.filterMap_flatMap, List.map_eq_flatMap,
      Outline.classEntries, hnone]
  have hmethods : ∀ o, (declareChanges o).filterMap Change.method? = o.methodEntries := by
    intro o
    simp [declareChanges, classChanges, methodChanges, functionChanges, variableChanges,
      Change.method?, List.filterMap_cons, List.filterMap_flatMap, List.map_eq_flatMap,
      Outline.methodEntries]
  rw [declaredNames, declareAll_eq_replay, tables_replay]
  simp only [List.filterMap_flatMap, hfunctions, hclasses, hmethods]

end Draft

/-! ## Resolution by the entries of a module -/

namespace Names

/-- The tables give the names of a module the same meaning. -/
structure AgreeOn (scope : Text) (names names' : Names) : Prop where
  functions : ∀ name, Assoc.get? (scope, name) names.functions =
    Assoc.get? (scope, name) names'.functions
  classes : ∀ name, Assoc.get? (scope, name) names.classes =
    Assoc.get? (scope, name) names'.classes
  methods : ∀ className name, Assoc.get? (scope, className, name) names.methods =
    Assoc.get? (scope, className, name) names'.methods

namespace AgreeOn

variable {scope : Text} {names names' : Names} (hagree : AgreeOn scope names names')
include hagree

theorem methodOf?_eq (className : Option Text) (method : Text) :
    names.methodOf? scope className method = names'.methodOf? scope className method := by
  unfold methodOf?
  split
  · rfl
  · rfl
  · exact hagree.methods _ _

/-- A call finds what its module's entries say. -/
theorem callTarget_eq (name : Text) (within : Option Text) (aliases : List (Text × Text)) :
    names.callTarget scope name within aliases =
      names'.callTarget scope name within aliases := by
  simp only [callTarget, dottedTarget, bareTarget, Assoc.contains, hagree.functions,
    hagree.classes, hagree.methods, hagree.methodOf?_eq]
  rfl

end AgreeOn

/-- The references by which functions and methods call others are told by their module's
entries. -/
theorem AgreeOn.callLinks_eq {o : Outline} {names names' : Names}
    (hagree : AgreeOn o.moduleName names names') : o.callLinks names = o.callLinks names' := by
  have hlink : o.callLink names = o.callLink names' := by
    funext source within call
    rw [Outline.callLink, Outline.callLink, hagree.callTarget_eq]
  rw [Outline.callLinks, Outline.callLinks, hlink]

end Names

/-! ## Base classes by the entries of all modules -/

namespace Names

theorem eq_nil_of_least? {ts : List Text} (hnone : least? ts = none) : ts = [] := by
  cases ts with
  | nil => rfl
  | cons t ts =>
      rw [least?] at hnone
      split at hnone <;> cases hnone

theorem le_of_least? {ts : List Text} {t : Text} (hleast : least? ts = some t) :
    ∀ u ∈ ts, Text.le t u = true := by
  induction ts generalizing t with
  | nil => exact fun u hu => absurd hu List.not_mem_nil
  | cons v ts ih =>
      have hself (u : Text) : Text.le u u = true := Text.le_iff_not_lt.mpr (List.lt_irrefl u)
      rw [least?] at hleast
      split at hleast
      · next hnone =>
        obtain rfl := Option.some.inj hleast
        intro u hu
        rw [eq_nil_of_least? hnone, List.mem_singleton] at hu
        rw [hu]
        exact hself _
      · next w hw =>
        obtain rfl := Option.some.inj hleast
        intro u hu
        split
        · next hle =>
          obtain rfl | hu := List.mem_cons.mp hu
          · exact hself _
          · exact Text.le_trans hle (ih hw u hu)
        · next hnot =>
          obtain rfl | hu := List.mem_cons.mp hu
          · have htotal := Text.le_total w u
            rw [Bool.or_eq_true] at htotal
            exact htotal.resolve_right hnot
          · exact ih hw u hu

/-- The least of some texts is the one that all others follow. -/
theorem least?_eq_some_iff {ts : List Text} {t : Text} :
    least? ts = some t ↔ t ∈ ts ∧ ∀ u ∈ ts, Text.le t u = true := by
  constructor
  · exact fun hleast => ⟨mem_of_least? hleast, le_of_least? hleast⟩
  · rintro ⟨hmem, hle⟩
    cases hleast : least? ts with
    | none =>
        rw [eq_nil_of_least? hleast] at hmem
        exact absurd hmem List.not_mem_nil
    | some u =>
        rw [Text.le_antisymm (le_of_least? hleast t hmem) (hle u (mem_of_least? hleast))]

/-- The least of some texts does not depend on their order. -/
theorem least?_perm {ts us : List Text} (hperm : ts.Perm us) : least? ts = least? us := by
  refine Option.ext fun t => ?_
  rw [least?_eq_some_iff, least?_eq_some_iff]
  simp only [hperm.mem_iff]

/-- A base class finds what the entries of its module and the classes of all modules say. -/
theorem AgreeOn.baseTarget_eq {scope : Text} {names names' : Names}
    (hagree : AgreeOn scope names names') (hclasses : names.classes.Perm names'.classes)
    (base : Text) : names.baseTarget scope base = names'.baseTarget scope base := by
  have hanywhere : names.classAnywhere? base = names'.classAnywhere? base :=
    least?_perm ((hclasses.filter _).map Prod.snd)
  rw [baseTarget, baseTarget, hagree.classes, baseAnywhere, baseAnywhere, hanywhere]

namespace AgreeOn

variable {o : Outline} {names names' : Names} (hagree : AgreeOn o.moduleName names names')
  (hclasses : names.classes.Perm names'.classes)
include hagree hclasses

theorem baseLinks_eq : o.baseLinks names = o.baseLinks names' := by
  simp only [Outline.baseLinks, hagree.baseTarget_eq hclasses]

theorem placeholders_eq : o.placeholders names = o.placeholders names' := by
  have hcallee : Draft.callee names o = Draft.callee names' o := by
    funext within call
    exact hagree.callTarget_eq _ _ _
  have hbase : names.baseTarget o.moduleName = names'.baseTarget o.moduleName :=
    funext (hagree.baseTarget_eq hclasses)
  rw [Outline.placeholders, Outline.placeholders, Outline.targets, Outline.targets,
    hcallee, hbase]

end AgreeOn

end Names

end SymbolGraph
