import SymbolGraph.Outline.Read
import SymbolGraph.Proofs.Line.Block
import SymbolGraph.Proofs.Line.Identifier
set_option autoImplicit false

/-!
# Every header is reported at most once

A header line declares a class or a function with a name. The classes, methods and functions of
an outline are headers of its file in the order of the file, each taken once (`headings_read`):
a header in the block of a class is at most a method of that class, and the blocks of top-level
headers do not overlap. So no two of them share a line, and their names are identifiers. The
same holds of the variables, of which each line gives at most one.
-/

namespace SymbolGraph

/-- What a header declares: a class or a function, its name and its line. -/
structure Heading where
  kind : NodeKind
  name : Text
  line : Int
  deriving DecidableEq, Repr

/-- What a line declares, if it is a header. -/
def Line.heading? (l : Line) : Option Heading :=
  match l.form with
  | .functionHeader _ name _ _ => some ⟨.function, name, l.number⟩
  | .classHeader name _ => some ⟨.class_, name, l.number⟩
  | _ => none

/-- The header of a function or a method. -/
def FunctionDecl.heading (f : FunctionDecl) : Heading := ⟨.function, f.name, f.firstLine⟩

/-- The headers of a class and its methods. -/
def ClassDecl.headings (c : ClassDecl) : List Heading :=
  ⟨.class_, c.name, c.firstLine⟩ :: c.methods.map FunctionDecl.heading

/-- The headers of a declaration. -/
def Declaration.headings : Declaration → List Heading
  | function f => [f.heading]
  | .class c => c.headings

/-- The headers of an outline. -/
def Outline.headings (o : Outline) : List Heading :=
  o.classes.flatMap ClassDecl.headings ++ o.functions.map FunctionDecl.heading

/-! ## Headers of methods -/

/-- The first lines of a list, where its line number `run` is `l`. -/
theorem take_eq_append_cons {ls after : List Line} {l : Line} {run size : Nat}
    (hdrop : ls.drop run = l :: after) (hsize : ¬ size ≤ run) :
    ls.take size = ls.take run ++ l :: after.take (size - (run + 1)) := by
  have hsplit : size = run + (size - (run + 1) + 1) := by omega
  conv => lhs; rw [hsplit, List.take_add, hdrop, List.take_succ_cons]

/-- Headers found behind the first lines of a list are found in it. -/
theorem sublist_of_drop_take {found : List Heading} {ls : List Line} {skip size : Nat}
    (hfound : found.Sublist (((ls.drop skip).take (size - skip)).filterMap Line.heading?)) :
    found.Sublist ((ls.take size).filterMap Line.heading?) := by
  rw [← List.drop_take] at hfound
  exact hfound.trans ((List.drop_sublist skip (ls.take size)).filterMap Line.heading?)

/-- The methods in the first lines of a list are headers there. -/
theorem headings_methods (options : OutlineOptions) (size : Nat) (ls : List Line) :
    ((methods options size ls).map FunctionDecl.heading).Sublist
      ((ls.take size).filterMap Line.heading?) := by
  fun_induction methods options size ls with
  | case1 size ls run hdrop => exact List.nil_sublist _
  | case2 size ls run l after hdrop hsize => exact List.nil_sublist _
  | case3 size ls run l after hdrop hsize left taken async name parameters hint hform ih =>
      have hlater := sublist_of_drop_take ih
      have hheading : l.heading? = some ⟨.function, name, l.number⟩ := by
        simp [Line.heading?, hform]
      rw [take_eq_append_cons hdrop hsize, List.filterMap_append, List.filterMap_cons, hheading,
        List.map_cons]
      exact (hlater.cons_cons _).trans (List.sublist_append_right _ _)
  | case4 size ls run l after hdrop hsize left taken name bases hform ih =>
      have hlater := sublist_of_drop_take ih
      rw [take_eq_append_cons hdrop hsize, List.filterMap_append]
      refine (hlater.trans ?_).trans (List.sublist_append_right _ _)
      exact (List.sublist_cons_self l _).filterMap Line.heading?
  | case5 size ls run l after hdrop hsize left hfunction hclass ih =>
      rw [take_eq_append_cons hdrop hsize, List.filterMap_append]
      refine (ih.trans ?_).trans (List.sublist_append_right _ _)
      exact (List.sublist_cons_self l _).filterMap Line.heading?

/-! ## Headers of declarations -/

/-- A class and its methods are the headers of its line and its block. -/
theorem headings_declareClass (options : OutlineOptions) (name : Text) (bases : Option Text)
    (decorators : List Text) (l : Line) (after : List Line) :
    (declareClass options name bases decorators l after).headings.Sublist
      (⟨.class_, name, l.number⟩ :: (block l.indent after).filterMap Line.heading?) := by
  refine List.Sublist.cons_cons _ ?_
  conv => rhs; rw [List.prefix_iff_eq_take.mp (block_isPrefix l.indent after)]
  exact sublist_of_drop_take (headings_methods options _ _)

/-- The declarations of some lines are headers there, each taken once. -/
theorem headings_declarations (options : OutlineOptions) (ls : List Line) :
    ((declarations options ls).flatMap Declaration.headings).Sublist
      (ls.filterMap Line.heading?) := by
  have hbehind : ∀ {ls after : List Line} {l : Line} {run : Nat}, ls.drop run = l :: after →
      ((l :: after).filterMap Line.heading?).Sublist (ls.filterMap Line.heading?) :=
    fun {ls after l run} hdrop => (hdrop ▸ List.drop_sublist run ls).filterMap Line.heading?
  fun_induction declarations options ls with
  | case1 ls run hdrop => exact List.nil_sublist _
  | case2 ls run l after hdrop taken async name parameters hint hform ih =>
      have hheading : l.heading? = some ⟨.function, name, l.number⟩ := by
        simp [Line.heading?, hform]
      have hlater := ih.trans ((List.drop_sublist taken after).filterMap Line.heading?)
      refine List.Sublist.trans ?_ (hbehind hdrop)
      rw [List.filterMap_cons, hheading, List.flatMap_cons]
      exact hlater.cons_cons _
  | case3 ls run l after hdrop taken name bases hform ih =>
      have hheading : l.heading? = some ⟨.class_, name, l.number⟩ := by
        simp [Line.heading?, hform]
      -- the methods are found in the block, all later declarations behind it
      have hafter : after = block l.indent after ++ after.drop taken :=
        (List.prefix_iff_eq_append.mp (block_isPrefix l.indent after)).symm
      refine List.Sublist.trans ?_ (hbehind hdrop)
      rw [List.filterMap_cons, hheading, List.flatMap_cons]
      conv => rhs; rw [hafter, List.filterMap_append]
      exact (headings_declareClass options name bases _ l after).append ih
  | case4 ls run l after hdrop hfunction hclass ih =>
      refine (ih.trans ?_).trans (hbehind hdrop)
      exact (List.sublist_cons_self l after).filterMap Line.heading?

/-! ## Headers of an outline -/

/-- Taking classes and functions apart keeps what each of them gives. -/
theorem parts_perm {α : Type} (part : Declaration → List α) (ds : List Declaration) :
    ((ds.filterMap Declaration.class?).flatMap (fun c => part (.class c))
      ++ (ds.filterMap Declaration.function?).flatMap (fun f => part (.function f))).Perm
      (ds.flatMap part) := by
  induction ds with
  | nil => exact List.Perm.nil
  | cons d ds ih =>
      rw [List.flatMap_cons]
      cases d with
      | function f =>
          exact (List.perm_append_comm_assoc _ _ _).trans (ih.append_left (part (.function f)))
      | «class» c =>
          simp only [List.filterMap_cons, Declaration.class?, Declaration.function?,
            List.flatMap_cons, List.append_assoc]
          exact ih.append_left (part (.class c))

/-- Taking classes and functions apart keeps all headers. -/
theorem headings_perm (ds : List Declaration) :
    ((ds.filterMap Declaration.class?).flatMap ClassDecl.headings
      ++ (ds.filterMap Declaration.function?).map FunctionDecl.heading).Perm
      (ds.flatMap Declaration.headings) := by
  rw [List.map_eq_flatMap]
  exact parts_perm Declaration.headings ds

/-- Values found on lines, each with the number of its line, have the numbers of some of the
lines. -/
theorem lines_sublist {α : Type} {find : Line → Option α} {line : α → Int}
    (hline : ∀ {l a}, find l = some a → line a = l.number) (ls : List Line) :
    ((ls.filterMap find).map line).Sublist (ls.map fun l => (l.number : Int)) := by
  induction ls with
  | nil => exact List.Sublist.slnil
  | cons l ls ih =>
      cases hfind : find l with
      | none =>
          rw [List.filterMap_cons_none hfind]
          exact ih.cons _
      | some a =>
          rw [List.filterMap_cons_some hfind, List.map_cons, List.map_cons, hline hfind]
          exact ih.cons_cons _

/-- The lines of a text are numbered from 1. -/
theorem numbers_scan (t : Text) :
    (Line.scan t).map (fun l => (l.number : Int)) =
      (List.range (Line.scan t).length).map fun i : Nat => (i : Int) + 1 := by
  refine List.ext_getElem (by simp) ?_
  intro i hleft hright
  simp [Line.scan, Line.ofText, Line.number]

theorem nodup_numbers_scan (t : Text) :
    ((Line.scan t).map fun l => (l.number : Int)).Nodup := by
  rw [numbers_scan, List.Nodup, List.pairwise_map]
  refine List.nodup_range.imp ?_
  intro i j hne heq
  exact hne (by omega)

theorem namesIdentifier_of_mem_scan {t : Text} {l : Line} (hl : l ∈ Line.scan t) :
    l.form.NamesIdentifier := by
  obtain ⟨i, hi, rfl⟩ := List.exists_of_mem_mapIdx hl
  exact namesIdentifier_ofText _

theorem line_of_heading? {l : Line} {h : Heading} (hheading : l.heading? = some h) :
    h.line = l.number := by
  unfold Line.heading? at hheading
  split at hheading
  · rw [← Option.some.inj hheading]
  · rw [← Option.some.inj hheading]
  · exact absurd hheading.symm (Option.some_ne_none h)

theorem isIdentifier_of_heading? {l : Line} {h : Heading} (hl : l.form.NamesIdentifier)
    (hheading : l.heading? = some h) : IsIdentifier h.name := by
  unfold Line.heading? at hheading
  split at hheading
  · next hform =>
    rw [hform] at hl
    exact Option.some.inj hheading ▸ hl
  · next hform =>
    rw [hform] at hl
    exact Option.some.inj hheading ▸ hl
  · exact absurd hheading.symm (Option.some_ne_none h)

theorem line_of_assigned? {options : OutlineOptions} {l : Line} {v : VariableDecl}
    (hassigned : l.assigned? options = some v) : v.line = l.number := by
  unfold Line.assigned? at hassigned
  split at hassigned
  · split at hassigned
    · rw [← Option.some.inj hassigned]
    · exact absurd hassigned.symm (Option.some_ne_none v)
  · exact absurd hassigned.symm (Option.some_ne_none v)

theorem isIdentifier_of_assigned? {options : OutlineOptions} {l : Line} {v : VariableDecl}
    (hl : l.form.NamesIdentifier) (hassigned : l.assigned? options = some v) :
    IsIdentifier v.name := by
  unfold Line.assigned? at hassigned
  split at hassigned
  · next hform =>
    split at hassigned
    · rw [hform] at hl
      exact Option.some.inj hassigned ▸ hl
    · exact absurd hassigned.symm (Option.some_ne_none v)
  · exact absurd hassigned.symm (Option.some_ne_none v)

/-! ## Outlines of files -/

/-- Names and lines by which the declarations of an outline are told apart: all names are
identifiers, all lines count from 1, and no line carries two headers or two variables. -/
structure Outline.Regular (o : Outline) : Prop where
  headingName : ∀ h ∈ o.headings, IsIdentifier h.name
  headingLine : ∀ h ∈ o.headings, 1 ≤ h.line
  headingLines : (o.headings.map Heading.line).Nodup
  globalName : ∀ v ∈ o.globals, IsIdentifier v.name
  globalLine : ∀ v ∈ o.globals, 1 ≤ v.line
  globalLines : (o.globals.map VariableDecl.line).Nodup

/-- The headers of a file's outline are headers of its lines, each taken once. -/
theorem headings_read (options : OutlineOptions) (filePath fileName content : Text) :
    ∃ found, (Outline.read options filePath fileName content).headings.Perm found ∧
      found.Sublist ((Line.scan content).filterMap Line.heading?) :=
  ⟨_, headings_perm _, headings_declarations options (Line.scan content)⟩

/-- The outline of a file is regular, whatever the file holds. -/
theorem regular_read (options : OutlineOptions) (filePath fileName content : Text) :
    (Outline.read options filePath fileName content).Regular := by
  obtain ⟨found, hperm, hsublist⟩ := headings_read options filePath fileName content
  have hheader : ∀ h ∈ (Outline.read options filePath fileName content).headings,
      ∃ l ∈ Line.scan content, l.heading? = some h := fun h hh =>
    List.mem_filterMap.mp (hsublist.subset (hperm.mem_iff.mp hh))
  have hassigned : ∀ v ∈ (Outline.read options filePath fileName content).globals,
      ∃ l ∈ Line.scan content, l.assigned? options = some v := fun v hv =>
    List.mem_filterMap.mp hv
  refine ⟨?_, ?_, ?_, ?_, ?_, ?_⟩
  · intro h hh
    obtain ⟨l, hl, hheading⟩ := hheader h hh
    exact isIdentifier_of_heading? (namesIdentifier_of_mem_scan hl) hheading
  · intro h hh
    obtain ⟨l, -, hheading⟩ := hheader h hh
    rw [line_of_heading? hheading, Line.number]
    omega
  · have hlines := lines_sublist line_of_heading? (Line.scan content)
    have hfound := ((hsublist.map Heading.line).trans hlines).nodup (nodup_numbers_scan content)
    exact (hperm.map Heading.line).nodup_iff.mpr hfound
  · intro v hv
    obtain ⟨l, hl, hline⟩ := hassigned v hv
    exact isIdentifier_of_assigned? (namesIdentifier_of_mem_scan hl) hline
  · intro v hv
    obtain ⟨l, -, hline⟩ := hassigned v hv
    rw [line_of_assigned? hline, Line.number]
    omega
  · exact (lines_sublist line_of_assigned? (Line.scan content)).nodup
      (nodup_numbers_scan content)

end SymbolGraph
