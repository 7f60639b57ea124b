import SymbolGraph.Proofs.Graph.Declaration
import SymbolGraph.Proofs.Graph.Extension
set_option autoImplicit false

/-!
# When a class inherits from itself

A base class is looked for by its name, and the table of classes holds the class that is being
linked as well. So a class that names a base with its own name, as one that takes the place of
an imported class does, can find itself. It does so exactly if it is the last class of that name
in its module (`inherits_itself_iff`). Nothing else leads there: what is found in another module
has another identifier, and so has what is outside.
-/

namespace SymbolGraph

open Draft

/-- The first lines of all classes with a name in the modules with a name, in the order in which
they are declared. -/
def classLines (os : List Outline) (scope name : Text) : List Int :=
  os.flatMap fun o =>
    (o.classes.filter fun c => o.moduleName = scope ∧ c.name = name).map ClassDecl.firstLine

/-! ## The table of classes -/

/-- In its module a name stands for the class that was declared last. -/
theorem get?_classes (os : List Outline) (scope name : Text) :
    Assoc.get? (scope, name) (declaredNames os).classes =
      (classLines os scope name).getLast?.map (nodeId scope .class_ name) := by
  have hentries : ∀ o :
      Outline, (o.classEntries.filter fun p => p.1 = (scope, name)).map Prod.snd =
      ((o.classes.filter fun c => o.moduleName = scope ∧ c.name = name).map
        ClassDecl.firstLine).map
        (nodeId scope .class_ name) := by
    intro o
    simp only [Outline.classEntries, List.filter_map, List.map_map, Function.comp_def,
      Prod.mk.injEq]
    refine List.map_congr_left fun c hc => ?_
    obtain ⟨rfl, rfl⟩ := of_decide_eq_true (List.mem_filter.mp hc).2
    rfl
  rw [declaredNames_eq, Assoc.get?_putAll, Assoc.get?_nil, Option.or_none, List.filter_flatMap,
    List.map_flatMap, List.flatMap_congr fun o _ => hentries o, ← List.map_flatMap,
    List.getLast?_map]
  rfl

/-- Every entry in the table of classes is that of a class. -/
theorem exists_class_of_mem_classes {os : List Outline} {entry : (Text × Text) × Text}
    (hentry : entry ∈ (declaredNames os).classes) :
    ∃ o ∈ os, ∃ c ∈ o.classes, entry = ((o.moduleName, c.name), (c.node o).id) := by
  rw [declaredNames_eq] at hentry
  obtain hnone | hentry := Assoc.mem_putAll hentry
  · exact absurd hnone List.not_mem_nil
  · obtain ⟨o, ho, hentry⟩ := List.mem_flatMap.mp hentry
    obtain ⟨c, hc, rfl⟩ := List.mem_map.mp hentry
    exact ⟨o, ho, c, hc, rfl⟩

/-! ## Which bases are found in the class itself -/

theorem Outline.Regular.classHeading {o : Outline} (ho : o.Regular) {c : ClassDecl}
    (hc : c ∈ o.classes) : IsIdentifier c.name ∧ 1 ≤ c.firstLine := by
  have hheading : ⟨.class_, c.name, c.firstLine⟩ ∈ o.headings :=
    List.mem_append_left _ (List.mem_flatMap.mpr ⟨c, hc, List.mem_cons_self⟩)
  exact ⟨ho.headingName _ hheading, ho.headingLine _ hheading⟩

section

variable {os : List Outline} (hregular : ∀ o ∈ os, o.Regular)
  (hbars : ∀ o ∈ os, '|' ∉ o.moduleName) {o : Outline} (ho : o ∈ os) {c : ClassDecl}
  (hc : c ∈ o.classes)
include hregular hbars ho hc

/-- The identifier of a class is that of no class with another name or in another module. -/
theorem eq_of_classId_eq {o' : Outline} (ho' : o' ∈ os) {c' : ClassDecl} (hc' : c' ∈ o'.classes)
    (heq : (c'.node o').id = (c.node o).id) :
    o'.moduleName = o.moduleName ∧ c'.name = c.name ∧ c'.firstLine = c.firstLine := by
  obtain ⟨hname, -⟩ := (hregular o ho).classHeading hc
  obtain ⟨hname', -⟩ := (hregular o' ho').classHeading hc'
  obtain ⟨hmodule, -, hsame⟩ :=
    nodeId_inj (hbars o' ho') hname'.plain (hbars o ho) hname.plain heq
  exact ⟨hmodule, hsame⟩

/-- Where a name is not found in the module, it does not lead to a class of the module. -/
theorem baseAnywhere_ne {base : Text}
    (hnone : Assoc.get? (o.moduleName, base) (declaredNames os).classes = none) :
    ((declaredNames os).baseAnywhere base).id ≠ (c.node o).id := by
  intro heq
  unfold Names.baseAnywhere at heq
  split at heq
  · next id hfound =>
    obtain ⟨entry, hfiltered, rfl⟩ := List.mem_map.mp (Names.mem_of_least? hfound)
    obtain ⟨hentry, hbase⟩ := List.mem_filter.mp hfiltered
    have hkey : Assoc.contains entry.1 (declaredNames os).classes = true :=
      Assoc.contains_iff.mpr (List.mem_map_of_mem hentry)
    obtain ⟨o', ho', c', hc', rfl⟩ := exists_class_of_mem_classes hentry
    obtain ⟨hmodule, -, -⟩ := eq_of_classId_eq hregular hbars ho hc ho' hc' heq
    obtain rfl : c'.name = base := of_decide_eq_true hbase
    rw [Assoc.contains, hmodule, hnone] at hkey
    exact absurd hkey Bool.false_ne_true
  · have hline := ((hregular o ho).classHeading hc).2
    exact nodeId_ne_externalId (by omega) _ _ _ _ _ heq.symm

/-- A base is the class itself if it has its name and the class is the last one of that name. -/
theorem baseTarget_id_eq_iff (base : Text) :
    ((declaredNames os).baseTarget o.moduleName base).id = (c.node o).id ↔
      base = c.name ∧ (classLines os o.moduleName base).getLast? = some c.firstLine := by
  have hget := get?_classes os o.moduleName base
  unfold Names.baseTarget
  split
  · next id hid =>
    rw [hid] at hget
    obtain ⟨n, hn, rfl⟩ := Option.map_eq_some_iff.mp hget.symm
    rw [hn]
    constructor
    · intro heq
      obtain ⟨o', ho', c', hc', hline⟩ :
        ∃ o' ∈ os, ∃ c' ∈ o'.classes, (o'.moduleName = o.moduleName ∧
          c'.name = base) ∧ c'.firstLine = n := by
        simpa [classLines, and_assoc] using List.mem_of_getLast? hn
      obtain ⟨⟨hmodule, rfl⟩, rfl⟩ := hline
      have hid : (c'.node o').id = (c.node o).id := by
        rw [← heq, ← hmodule]
        rfl
      obtain ⟨-, hname, hline⟩ := eq_of_classId_eq hregular hbars ho hc ho' hc' hid
      exact ⟨hname, congrArg some hline⟩
    · rintro ⟨rfl, hline⟩
      rw [Option.some.inj hline]
      rfl
  · next hnone =>
    rw [hnone] at hget
    refine iff_of_false (baseAnywhere_ne hregular hbars ho hc hnone) ?_
    rintro ⟨-, hlast⟩
    rw [hlast] at hget
    cases hget

end

/-! ## Edges that end where they start -/

/-- The edges by which classes inherit are those to their bases, keyword arguments apart. -/
theorem exists_inherits_iff (os : List Outline) (source target : Text) :
    (∃ e ∈ (Graph.build os).edges, e.link = ⟨source, .inherits, target⟩) ↔
      ∃ o ∈ os, ∃ c ∈ o.classes, ∃ base ∈ c.bases, '=' ∉ base ∧
        ((declaredNames os).baseTarget o.moduleName base).id = source ∧
        (c.node o).id = target := by
  rw [← mem_references_iff, (references_perm os).mem_iff, List.mem_append]
  have hown : (⟨source, .inherits, target⟩ : Link) ∉
      os.flatMap (Outline.ownLinks (declaredNames os)) := by
    intro hmem
    obtain ⟨o, -, hlink⟩ := List.mem_flatMap.mp hmem
    exact Outline.relation_of_mem_ownLinks hlink rfl
  simp [hown, Outline.baseLinks, and_assoc]

/-- Files have outlines if all have contents and the length of snippets is an integer. If they
have outlines, a class of theirs has an edge by which it inherits from itself exactly if it
names a base with its own name and is the last class of this name that is declared in modules
with the name of its module.
-/
theorem inherits_itself_iff (options : ReadingOptions) (files : List SourceFile) :
    ((∀ f ∈ files, f.content.isSome) → options.snippetLength.integer?.isSome →
      ∃ os, outlines options files = .ok os) ∧
    ∀ os, outlines options files = .ok os → ∀ id : Text,
      (∃ e ∈ (Graph.build os).edges, e.link = ⟨id, .inherits, id⟩) ↔
        ∃ o ∈ os, ∃ c ∈ o.classes, (c.node o).id = id ∧ c.name ∈ c.bases ∧
          (classLines os o.moduleName c.name).getLast? = some c.firstLine := by
  refine ⟨exists_outlines, fun os houtlines id => ?_⟩
  have hregular : ∀ o ∈ os, o.Regular := fun o ho => regular_of_mem_outlines houtlines ho
  have hbars : ∀ o ∈ os, '|' ∉ o.moduleName := fun o ho => barFree_of_mem_outlines houtlines ho
  rw [exists_inherits_iff]
  constructor
  · rintro ⟨o, ho, c, hc, base, hbase, -, hsource, rfl⟩
    obtain ⟨rfl, hlast⟩ := (baseTarget_id_eq_iff hregular hbars ho hc base).mp hsource
    exact ⟨o, ho, c, hc, rfl, hbase, hlast⟩
  · rintro ⟨o, ho, c, hc, rfl, hbase, hlast⟩
    have hname := ((hregular o ho).classHeading hc).1
    refine ⟨o, ho, c, hc, c.name, hbase, hname.not_mem (by decide) (by decide), ?_, rfl⟩
    exact (baseTarget_id_eq_iff hregular hbars ho hc c.name).mpr ⟨rfl, hlast⟩

/-- A file with a class, and a module with the given content. -/
def withBaseFile (content : String) : List SourceFile :=
  [{ name := "base.py".toList, content := some "class Foo: pass".toList },
    { name := "m.py".toList, content := some content.toList }]

/-- A class whose name a later class takes does not inherit from itself, but from the later
class. -/
theorem inherits_itself_iff_laterClass :
    ∃ os, outlines ⟨true, .number 40⟩ (withBaseFile "class Foo(Foo): pass\nclass Foo: pass") =
      .ok os ∧
      ¬ ∃ e ∈ (Graph.build os).edges,
        e.link = ⟨"m:class:Foo:1".toList, .inherits, "m:class:Foo:1".toList⟩ := by
  obtain ⟨hread, hexact⟩ :=
    inherits_itself_iff ⟨true, .number 40⟩
      (withBaseFile "class Foo(Foo): pass\nclass Foo: pass")
  obtain ⟨os, hos⟩ := hread (by decide) rfl
  have hnone : (outlines ⟨true, .number 40⟩
      (withBaseFile "class Foo(Foo): pass\nclass Foo: pass")).toOption.map
      (fun os => decide (∃ o ∈ os, ∃ c ∈ o.classes, (c.node o).id = "m:class:Foo:1".toList ∧
        c.name ∈ c.bases ∧ (classLines os o.moduleName c.name).getLast? = some c.firstLine)) =
      some false := by decide +kernel
  rw [hos] at hnone
  refine ⟨os, hos, fun hedge => ?_⟩
  exact of_decide_eq_false (Option.some.inj hnone) ((hexact os hos _).mp hedge)

/-- A class that takes the name of an imported class, from which it inherits, inherits from
itself. -/
theorem importedName_inherits_itself :
    ∃ os, outlines ⟨true, .number 40⟩
      (withBaseFile "from base import Foo\nclass Foo(Foo): pass") = .ok os ∧
      ∃ e ∈ (Graph.build os).edges,
        e.link.relation = .inherits ∧ e.link.source = e.link.target := by
  obtain ⟨os, hos⟩ : ∃ os, outlines ⟨true, .number 40⟩
      (withBaseFile "from base import Foo\nclass Foo(Foo): pass") = .ok os :=
    exists_outlines (by decide) rfl
  have hfound : (outlines ⟨true, .number 40⟩
      (withBaseFile "from base import Foo\nclass Foo(Foo): pass")).toOption.map
      (fun os => decide (∃ o ∈ os, ∃ c ∈ o.classes, ∃ base ∈ c.bases, '=' ∉ base ∧
        ((declaredNames os).baseTarget o.moduleName base).id = "m:class:Foo:2".toList ∧
        (c.node o).id = "m:class:Foo:2".toList)) = some true := by decide +kernel
  rw [hos] at hfound
  obtain ⟨e, he, hlink⟩ :=
    (exists_inherits_iff os _ _).mpr (of_decide_eq_true (Option.some.inj hfound))
  exact ⟨os, hos, e, he, congrArg Link.relation hlink,
    (congrArg Link.source hlink).trans (congrArg Link.target hlink).symm⟩

end SymbolGraph
