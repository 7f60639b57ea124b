import SymbolGraph.Proofs.Draft.Table
import SymbolGraph.Proofs.Outline.Entity
set_option autoImplicit false

/-!
# Outlines without ambiguity

In unambiguous outlines every name is declared once: no module name occurs twice, and within a
module no name of a class, of a function, or of a method of one class. So nodes of declarations
with one identifier are the same node. And no text that is referred to holds a bar, which an
identifier would replace, so that placeholders with one identifier are the same node too.
Nothing is ever merged with anything that differs from it.
-/

namespace SymbolGraph

open Draft Text

namespace Outline

/-- Within a module, a name stands for one class, for one function and for one method of a
class; variables may be assigned again on other lines. -/
structure Distinct (o : Outline) : Prop where
  classes : (o.classes.map ClassDecl.name).Nodup
  functions : (o.functions.map FunctionDecl.name).Nodup
  methods : ∀ c ∈ o.classes, (c.methods.map FunctionDecl.name).Nodup
  globals : (o.globals.map fun v => (v.name, v.line)).Nodup

instance : DecidablePred Distinct := fun o =>
  decidable_of_iff ((o.classes.map ClassDecl.name).Nodup ∧
    (o.functions.map FunctionDecl.name).Nodup ∧
      (∀ c ∈ o.classes, (c.methods.map FunctionDecl.name).Nodup) ∧
      (o.globals.map fun v => (v.name, v.line)).Nodup)
    ⟨fun ⟨h₁, h₂, h₃, h₄⟩ => ⟨h₁, h₂, h₃, h₄⟩, fun ⟨h₁, h₂, h₃, h₄⟩ => ⟨h₁, h₂, h₃, h₄⟩⟩

/-- No text that an outline refers to holds a bar. -/
structure BarFree (o : Outline) : Prop where
  paths : ∀ i ∈ o.imports, '|' ∉ i.path
  imported : ∀ i ∈ o.imports, ∀ n ∈ i.names, '|' ∉ n.name
  calls : ∀ c ∈ o.callSites, '|' ∉ c.name
  bases : ∀ c ∈ o.classes, ∀ base ∈ c.bases, '|' ∉ base

instance : DecidablePred BarFree := fun o =>
  decidable_of_iff ((∀ i ∈ o.imports, '|' ∉ i.path) ∧
      (∀ i ∈ o.imports, ∀ n ∈ i.names, '|' ∉ n.name) ∧ (∀ c ∈ o.callSites, '|' ∉ c.name) ∧
      ∀ c ∈ o.classes, ∀ base ∈ c.bases, '|' ∉ base)
    ⟨fun ⟨h₁, h₂, h₃, h₄⟩ => ⟨h₁, h₂, h₃, h₄⟩, fun ⟨h₁, h₂, h₃, h₄⟩ => ⟨h₁, h₂, h₃, h₄⟩⟩

end Outline

/-- All that the outlines declare and refer to is told apart by its name. -/
structure Unambiguous (os : List Outline) : Prop where
  modules : (os.map Outline.moduleName).Nodup
  named : ∀ o ∈ os, o.Named
  distinct : ∀ o ∈ os, o.Distinct
  barFree : ∀ o ∈ os, o.BarFree

instance : DecidablePred Unambiguous := fun os =>
  decidable_of_iff ((os.map Outline.moduleName).Nodup ∧ (∀ o ∈ os, o.Named) ∧
      (∀ o ∈ os, o.Distinct) ∧ ∀ o ∈ os, o.BarFree)
    ⟨fun ⟨h₁, h₂, h₃, h₄⟩ => ⟨h₁, h₂, h₃, h₄⟩, fun ⟨h₁, h₂, h₃, h₄⟩ => ⟨h₁, h₂, h₃, h₄⟩⟩

/-! ## Declarations -/

theorem mem_declaredNodes_iff {o : Outline} {n : Node} : n ∈ o.declaredNodes ↔
    n = o.node ∨ (∃ c ∈ o.classes, n = c.node o) ∨
      (∃ c ∈ o.classes, ∃ f ∈ c.methods, n = f.node o (some c.name)) ∨
      (∃ f ∈ o.functions, n = f.node o none) ∨ ∃ v ∈ o.globals, n = v.node o := by
  simp only [Outline.declaredNodes, List.mem_cons, List.mem_append, List.mem_flatMap,
    List.mem_map]
  constructor
  · rintro (h | (⟨c, hc, h | ⟨f, hf, rfl⟩⟩ | ⟨f, hf, rfl⟩) | ⟨v, hv, rfl⟩)
    · exact Or.inl h
    · exact Or.inr (Or.inl ⟨c, hc, h⟩)
    · exact Or.inr (Or.inr (Or.inl ⟨c, hc, f, hf, rfl⟩))
    · exact Or.inr (Or.inr (Or.inr (Or.inl ⟨f, hf, rfl⟩)))
    · exact Or.inr (Or.inr (Or.inr (Or.inr ⟨v, hv, rfl⟩)))
  · rintro (h | ⟨c, hc, h⟩ | ⟨c, hc, f, hf, rfl⟩ | ⟨f, hf, rfl⟩ | ⟨v, hv, rfl⟩)
    · exact Or.inl h
    · exact Or.inr (Or.inl (Or.inl ⟨c, hc, Or.inl h⟩))
    · exact Or.inr (Or.inl (Or.inl ⟨c, hc, Or.inr ⟨f, hf, rfl⟩⟩))
    · exact Or.inr (Or.inl (Or.inr ⟨f, hf, rfl⟩))
    · exact Or.inr (Or.inr ⟨v, hv, rfl⟩)

/-- A qualified name determines the class, whose name has no dot, and the method. -/
theorem qualifiedName_inj {c c' m m' : Text} (hc : '.' ∉ c) (hc' : '.' ∉ c')
    (heq : qualifiedName c m = qualifiedName c' m') : c = c' ∧ m = m' := by
  have hform : ∀ a b, qualifiedName a b = a ++ '.' :: b := by simp [qualifiedName]
  rw [hform, hform] at heq
  have hsplit := congrArg (split '.') heq
  rw [split_append_cons _ hc, split_append_cons _ hc'] at hsplit
  obtain rfl := (List.cons.inj hsplit).1
  exact ⟨rfl, (List.cons.inj (List.append_cancel_left heq)).2⟩

namespace Outline

/-- The nodes of a module are told apart by kind, label and line. -/
theorem Distinct.eq_of_label_eq {o : Outline} (hdistinct : o.Distinct) (hnamed : o.Named)
    {n n' : Node} (hn : n ∈ o.declaredNodes) (hn' : n' ∈ o.declaredNodes)
    (hkind : n.kind = n'.kind) (hlabel : n.label = n'.label) (hline : n.line = n'.line) :
    n = n' := by
  have hfunctionDot : ∀ f ∈ o.functions, '.' ∉ (f.node o none).label := by
    intro f hf
    refine (hnamed.headingName f.heading ?_).dotFree
    exact List.mem_append_right _ (List.mem_map_of_mem hf)
  have hmethodLabel : ∀ c ∈ o.classes, ∀ f : FunctionDecl,
      (f.node o (some c.name)).label = qualifiedName c.name f.name :=
    fun c hc f => hnamed.methodLabel hc f
  have hmethodDot : ∀ c ∈ o.classes, ∀ f :
      FunctionDecl, '.' ∈ (f.node o (some c.name)).label := by
    intro c hc f
    rw [hmethodLabel c hc f]
    simp [qualifiedName]
  rw [mem_declaredNodes_iff] at hn hn'
  -- the kinds leave two nodes of one form, or a method beside a function, which the dot tells
  -- apart
  obtain rfl | ⟨c, hc, rfl⟩ | ⟨c, hc, f, hf, rfl⟩ | ⟨f, hf, rfl⟩ | ⟨v, hv, rfl⟩ := hn <;>
    obtain rfl | ⟨c', hc', rfl⟩ | ⟨c', hc', f', hf', rfl⟩ | ⟨f', hf', rfl⟩ | ⟨v', hv', rfl⟩ :=
      hn' <;>
    cases hkind
  · rfl
  · rw [List.inj_on_of_nodup_map hdistinct.classes hc hc' hlabel]
  · rw [hmethodLabel c hc f, hmethodLabel c' hc' f'] at hlabel
    obtain ⟨hclass, hmethod⟩ := qualifiedName_inj (hnamed.className hc).dotFree
      (hnamed.className hc').dotFree hlabel
    obtain rfl := List.inj_on_of_nodup_map hdistinct.classes hc hc' hclass
    rw [List.inj_on_of_nodup_map (hdistinct.methods c hc) hf hf' hmethod]
  · exact absurd (hlabel ▸ hmethodDot c hc f) (hfunctionDot f' hf')
  · exact absurd (hlabel ▸ hmethodDot c' hc' f') (hfunctionDot f hf)
  · rw [List.inj_on_of_nodup_map hdistinct.functions hf hf' hlabel]
  · have hkey : (v.name, v.line) = (v'.name, v'.line) :=
      Prod.ext hlabel (Option.some.inj hline)
    rw [List.inj_on_of_nodup_map hdistinct.globals hv hv' hkey]

end Outline

/-- What unambiguous outlines declare under one identifier is the same. -/
theorem Unambiguous.eq_of_nodeId_eq {os : List Outline} (hos : Unambiguous os) {n n' : Node}
    (hn : n ∈ os.flatMap Outline.declaredNodes) (hn' : n' ∈ os.flatMap Outline.declaredNodes)
    (heq : n.id = n'.id) : n = n' := by
  obtain ⟨o, ho, hno⟩ := List.mem_flatMap.mp hn
  obtain ⟨o', ho', hno'⟩ := List.mem_flatMap.mp hn'
  obtain ⟨hmodule, hkind, hlabel, hline⟩ :=
    (hos.named o ho).eq_of_nodeId_eq (hos.named o' ho') hno hno' heq
  obtain rfl := List.inj_on_of_nodup_map hos.modules ho ho' hmodule
  exact (hos.distinct o ho).eq_of_label_eq (hos.named o ho) hno hno' hkind hlabel hline

/-! ## Entries -/

/-- Entries that each module makes under its own name, for different keys, have different
keys. -/
theorem nodup_keys_flatMap {κ : Type} {os : List Outline}
    (hmodules : (os.map Outline.moduleName).Nodup)
    {entries : Outline → List ((Text × κ) × Text)}
    (hscope : ∀ o, ∀ entry ∈ entries o, entry.1.1 = o.moduleName)
    (hkeys : ∀ o ∈ os, ((entries o).map Prod.fst).Nodup) :
    ((os.flatMap entries).map Prod.fst).Nodup := by
  rw [List.map_flatMap, List.nodup_flatMap]
  refine ⟨hkeys, (List.pairwise_map.mp hmodules).imp ?_⟩
  intro o o' hne k hk hk'
  obtain ⟨entry, hentry, rfl⟩ := List.mem_map.mp hk
  obtain ⟨entry', hentry', heq⟩ := List.mem_map.mp hk'
  rw [← hscope o entry hentry, ← hscope o' entry' hentry', heq] at hne
  exact hne rfl

namespace Outline.Distinct

variable {o : Outline} (ho : o.Distinct)
include ho

theorem nodup_functionKeys : (o.functionEntries.map Prod.fst).Nodup := by
  refine List.Nodup.of_map Prod.snd ?_
  rw [functionEntries, List.map_map, List.map_map]
  exact ho.functions

theorem nodup_classKeys : (o.classEntries.map Prod.fst).Nodup := by
  refine List.Nodup.of_map Prod.snd ?_
  rw [classEntries, List.map_map, List.map_map]
  exact ho.classes

theorem nodup_methodKeys : (o.methodEntries.map Prod.fst).Nodup := by
  simp only [methodEntries, List.map_flatMap, List.map_map, Function.comp_def]
  rw [List.nodup_flatMap]
  constructor
  · intro c hc
    refine List.Nodup.of_map (fun k : Text × Text × Text => k.2.2) ?_
    rw [List.map_map]
    exact ho.methods c hc
  · refine (List.pairwise_map.mp ho.classes).imp ?_
    intro c c' hne k hk hk'
    obtain ⟨f, -, rfl⟩ := List.mem_map.mp hk
    obtain ⟨f', -, heq⟩ := List.mem_map.mp hk'
    simp only [Prod.mk.injEq] at heq
    exact hne heq.2.1.symm

end Outline.Distinct

/-! ## Placeholders -/

theorem not_mem_firstSegment {c : Char} {t : Text} (hc : c ∉ t) : c ∉ firstSegment t :=
  fun hmem => hc ((List.takeWhile_sublist _).subset hmem)

theorem not_mem_lastSegment {c : Char} {t : Text} (hc : c ∉ t) : c ∉ lastSegment t := by
  rw [lastSegment, List.mem_reverse]
  exact fun hmem => hc (List.mem_reverse.mp ((List.takeWhile_sublist _).subset hmem))

theorem not_mem_topLevelModule {c : Char} {t : Text} (hc : c ∉ t) : c ∉ topLevelModule t := by
  rw [topLevelModule, List.mem_append, not_or]
  refine ⟨fun hmem => hc ((List.takeWhile_sublist _).subset hmem), not_mem_firstSegment ?_⟩
  exact fun hmem => hc ((List.dropWhile_sublist _).subset hmem)

theorem mem_values_putAll {κ : Type} [DecidableEq κ] {v : Text} {table pairs : List (κ × Text)}
    (hv : v ∈ (Assoc.putAll table pairs).map Prod.snd) :
    v ∈ pairs.map Prod.snd ∨ v ∈ table.map Prod.snd := by
  obtain ⟨entry, hentry, rfl⟩ := List.mem_map.mp hv
  exact (Assoc.mem_putAll hentry).symm.imp (List.mem_map_of_mem ·) (List.mem_map_of_mem ·)

namespace Outline.BarFree

variable {o : Outline} (ho : o.BarFree)
include ho

theorem importedModule {name : Text} (hname : name ∈ o.importedModules) : '|' ∉ name := by
  rw [importedModules, List.mem_mergeSort, List.mem_filter, List.mem_eraseDups] at hname
  obtain ⟨i, hi, hmodule⟩ := List.mem_flatMap.mp hname.1
  unfold ImportDecl.modules at hmodule
  split at hmodule
  · obtain ⟨n, hn, rfl⟩ := List.mem_map.mp hmodule
    exact not_mem_topLevelModule (ho.imported i hi n hn)
  · rw [List.mem_singleton.mp hmodule]
    exact not_mem_topLevelModule (ho.paths i hi)

/-- What an alias stands for holds no bar. -/
theorem aliased {k v : Text} (hget : Assoc.get? k o.aliases = some v) : '|' ∉ v := by
  obtain hbound | hnil := mem_values_putAll (Names.mem_values_of_get? hget)
  · obtain ⟨binding, hbinding, rfl⟩ := List.mem_map.mp hbound
    obtain ⟨i, hi, hbinding⟩ := List.mem_flatMap.mp hbinding
    unfold ImportDecl.bindings at hbinding
    split at hbinding
    · obtain ⟨n, hn, rfl⟩ := List.mem_map.mp hbinding
      exact ho.imported i hi n hn
    · obtain ⟨n, hn, rfl⟩ := List.mem_map.mp hbinding
      simp [qualifiedName, ho.paths i hi, ho.imported i hi n hn]
  · exact absurd hnil List.not_mem_nil

theorem aliasedOr {call : Text} (hcall : '|' ∉ call) (k : Text) :
    '|' ∉ (Assoc.get? k o.aliases).getD call := by
  cases hget : Assoc.get? k o.aliases with
  | none => exact hcall
  | some v => exact ho.aliased hget

theorem external_of_callTarget {names : Names} {scope call name : Text} {within : Option Text}
    {kind : NodeKind} (hcall : '|' ∉ call)
    (htarget : names.callTarget scope call within o.aliases = .external kind name) :
    '|' ∉ name := by
  unfold Names.callTarget at htarget
  split at htarget
  · simp only [Names.dottedTarget] at htarget
    split at htarget
    · split at htarget
      · exact absurd htarget Target.noConfusion
      · obtain ⟨-, rfl⟩ := Target.external.inj htarget
        exact not_mem_lastSegment hcall
    · split at htarget
      · exact absurd htarget Target.noConfusion
      · obtain ⟨-, rfl⟩ := Target.external.inj htarget
        exact ho.aliasedOr hcall _
  · simp only [Names.bareTarget] at htarget
    split at htarget
    · exact absurd htarget Target.noConfusion
    · obtain ⟨-, rfl⟩ := Target.external.inj htarget
      exact ho.aliasedOr hcall _

omit ho in
theorem external_of_baseTarget {names : Names} {scope base name : Text} {kind : NodeKind}
    (htarget : names.baseTarget scope base = .external kind name) : base = name := by
  unfold Names.baseTarget Names.baseAnywhere at htarget
  split at htarget
  · exact absurd htarget Target.noConfusion
  · split at htarget
    · exact absurd htarget Target.noConfusion
    · exact (Target.external.inj htarget).2

/-- The placeholders of an outline have names without a bar. -/
theorem placeholder {names : Names} {n : Node} (hn : n ∈ o.placeholders names) :
    ∃ kind name, n = externalNode kind name ∧ '|' ∉ name := by
  obtain himport | htarget := List.mem_append.mp hn
  · obtain ⟨name, hname, rfl⟩ := List.mem_map.mp himport
    exact ⟨.module_, name, rfl, ho.importedModule hname⟩
  · obtain ⟨t, ht, hplaceholder⟩ := List.mem_filterMap.mp htarget
    cases t with
    | declared id => exact absurd hplaceholder.symm (Option.some_ne_none n)
    | external kind name =>
        refine ⟨kind, name, (Option.some.inj hplaceholder).symm, ?_⟩
        simp only [targets, List.mem_append, List.mem_flatMap, List.mem_map] at ht
        have hcalls := ho.calls
        simp only [callSites, List.mem_append, List.mem_flatMap] at hcalls
        obtain (⟨f, hf, c, hc, hcallee⟩ | ⟨d, hd, f, hf, c, hc, hcallee⟩) | ⟨d, hd, base, hb,
          hbase⟩ := ht
        · exact ho.external_of_callTarget (hcalls c (Or.inl ⟨f, hf, hc⟩)) hcallee
        · exact ho.external_of_callTarget (hcalls c (Or.inr ⟨d, hd, f, hf, hc⟩)) hcallee
        · rw [← external_of_baseTarget hbase]
          exact ho.bases d hd base (List.mem_filter.mp hb).1

end Outline.BarFree

/-- What unambiguous outlines put in for one identifier outside is the same. -/
theorem Unambiguous.eq_of_externalId_eq {os : List Outline} (hos : Unambiguous os)
    {names : Names} {n n' : Node} (hn : n ∈ os.flatMap (Outline.placeholders names))
    (hn' : n' ∈ os.flatMap (Outline.placeholders names)) (heq : n.id = n'.id) : n = n' := by
  obtain ⟨o, ho, hno⟩ := List.mem_flatMap.mp hn
  obtain ⟨o', ho', hno'⟩ := List.mem_flatMap.mp hn'
  obtain ⟨kind, name, rfl, hname⟩ := (hos.barFree o ho).placeholder hno
  obtain ⟨kind', name', rfl, hname'⟩ := (hos.barFree o' ho').placeholder hno'
  obtain ⟨rfl, rfl⟩ := externalId_inj hname hname' heq
  rfl

end SymbolGraph
