import SymbolGraph.Proofs.Outline.Alongside
import SymbolGraph.Proofs.Outline.Concatenation
import SymbolGraph.Graph.Basic
set_option autoImplicit false

/-!
# What is declared, by name

Of a declaration only the names are looked at here: of a class its own and those of its methods,
of a function its own and those that it calls. Decorators play no part then, so that the readers
go on line by line: a header gives its names and is passed over with its block, and any other
line gives nothing (`namings_cons`, `methodNames_cons`).
-/

namespace SymbolGraph

open Text

/-! ## Names of declarations -/

/-- A declaration by name: a class with its methods, or a function with what it calls. -/
structure Naming where
  kind : NodeKind
  name : Text
  members : List Text
  deriving DecidableEq, Repr

def FunctionDecl.naming (f : FunctionDecl) : Naming := ⟨.function, f.name, f.calls.map (·.name)⟩

def ClassDecl.naming (c : ClassDecl) : Naming := ⟨.class_, c.name, c.methods.map (·.name)⟩

def Declaration.naming : Declaration → Naming
  | function f => f.naming
  | .class c => c.naming

/-- The declarations of some lines by name. -/
def namings (options : OutlineOptions) (ls : List Line) : List Naming :=
  (declarations options ls).map Declaration.naming

/-- The names of the methods in the first `size` of some lines. -/
def methodNames (options : OutlineOptions) (size : Nat) (ls : List Line) : List Text :=
  (methods options size ls).map (·.name)

/-! ## Line by line -/

/-- What the line declares, by name. -/
def Line.naming? (options : OutlineOptions) (l : Line) (after : List Line) : Option Naming :=
  (l.declaration? options [] after).map Declaration.naming

/-- The name of the method that the line is the header of. -/
def Line.methodName? (l : Line) : Option Text :=
  match l.form with
  | .functionHeader _ name _ _ => some name
  | _ => none

section

variable (options : OutlineOptions) (decorators : List Text) (l : Line) (after : List Line)

theorem naming_declaration? :
    (l.declaration? options decorators after).map Declaration.naming =
      l.naming? options after := by
  unfold Line.naming? Line.declaration?
  cases l.form <;> rfl

theorem name_method? : (l.method? options decorators after).map (·.name) = l.methodName? := by
  unfold Line.method? Line.methodName?
  cases l.form <;> rfl

variable {l}

theorem Line.naming?_eq_none (hheader : l.form.isHeader = false) :
    l.naming? options after = none := by
  rw [Line.naming?, Line.declaration?_eq_none hheader]
  rfl

theorem Line.methodName?_eq_none (hheader : l.form.isHeader = false) :
    l.methodName? = none := by
  unfold Line.methodName?
  cases hform : l.form with
  | functionHeader => simp [hform, LineForm.isHeader] at hheader
  | _ => rfl

theorem Line.taken_eq_zero (hheader : l.form.isHeader = false) : l.taken after = 0 := by
  rw [Line.taken, hheader]
  rfl

end

/-- Decorators and blank lines are no headers. -/
theorem isHeader_of_run {l : Line} (hrun : (l.isDecorator || l.isBlank) = true) :
    l.form.isHeader = false := by
  rcases Bool.or_eq_true_iff.mp hrun with hdecorator | hblank
  · rw [eq_of_beq hdecorator]
    rfl
  · rw [eq_of_beq hblank]
    rfl

theorem decoratorRun_cons_of_run {l : Line} (hrun : (l.isDecorator || l.isBlank) = true)
    (after : List Line) : decoratorRun (l :: after) = l :: decoratorRun after :=
  List.takeWhile_cons_of_pos hrun

theorem decoratorRun_cons_of_not_run {l : Line} (hrun : (l.isDecorator || l.isBlank) = false)
    (after : List Line) : decoratorRun (l :: after) = [] :=
  List.takeWhile_cons_of_neg (by simp [hrun])

section

variable (options : OutlineOptions)

theorem namings_nil : namings options [] = [] := by
  rw [namings, declarations_of_drop_eq_nil rfl]
  rfl

/-- A header gives its names and is passed over with its block. -/
theorem namings_cons (l : Line) (after : List Line) :
    namings options (l :: after) =
      (l.naming? options after).toList ++ namings options (after.drop (l.taken after)) := by
  cases hrun : l.isDecorator || l.isBlank with
  | false =>
      have hdrop : (l :: after).drop (decoratorRun (l :: after)).length = l :: after := by
        rw [decoratorRun_cons_of_not_run hrun]
        rfl
      rw [namings, declarations_of_drop_eq_cons hdrop, List.map_append, ← Option.toList_map,
        naming_declaration?, namings]
  | true =>
      have hheader := isHeader_of_run hrun
      have hdrop : (l :: after).drop (decoratorRun (l :: after)).length =
          after.drop (decoratorRun after).length := by
        rw [decoratorRun_cons_of_run hrun]
        rfl
      rw [Line.naming?_eq_none options after hheader, Line.taken_eq_zero after hheader,
        List.drop_zero, Option.toList_none, List.nil_append, namings, namings]
      cases hrest : after.drop (decoratorRun after).length with
      | nil =>
          rw [declarations_of_drop_eq_nil hrest,
            declarations_of_drop_eq_nil (hdrop.trans hrest)]
      | cons m rest =>
          rw [declarations_of_drop_eq_cons hrest,
            declarations_of_drop_eq_cons (hdrop.trans hrest), List.map_append, List.map_append,
            ← Option.toList_map, ← Option.toList_map, naming_declaration?, naming_declaration?]

/-- Lines that are no headers give no names. -/
theorem namings_append_of_no_header {front : List Line}
    (hfront : ∀ l ∈ front, l.form.isHeader = false) (rest : List Line) :
    namings options (front ++ rest) = namings options rest := by
  induction front with
  | nil => rfl
  | cons l front ih =>
      have hheader := hfront l List.mem_cons_self
      rw [List.cons_append, namings_cons, Line.naming?_eq_none options _ hheader,
        Line.taken_eq_zero _ hheader, List.drop_zero,
        ih fun m hm => hfront m (List.mem_cons_of_mem l hm)]
      rfl

theorem methodNames_zero (ls : List Line) : methodNames options 0 ls = [] := by
  rw [methodNames, methods_of_stop (Or.inr (Nat.zero_le _))]
  rfl

theorem methodNames_nil (size : Nat) : methodNames options size [] = [] := by
  rw [methodNames, methods_of_stop (Or.inl List.drop_nil)]
  rfl

theorem methodNames_cons (size : Nat) (l : Line) (after : List Line) :
    methodNames options (size + 1) (l :: after) =
      l.methodName?.toList ++ methodNames options (size - l.taken after)
        (after.drop (l.taken after)) := by
  cases hrun : l.isDecorator || l.isBlank with
  | false =>
      have hnone : decoratorRun ((l :: after).take (size + 1)) = [] :=
        decoratorRun_cons_of_not_run hrun _
      have hdrop : (l :: after).drop (decoratorRun ((l :: after).take (size + 1))).length =
          l :: after := by
        rw [hnone]
        rfl
      have hsize : size + 1 - ([].length (α := Line) + 1) - l.taken after =
          size - l.taken after := rfl
      rw [methodNames, methods_of_drop_eq_cons hdrop (by rw [hnone]; exact Nat.succ_pos size),
        List.map_append, ← Option.toList_map, name_method?, hnone, hsize, methodNames]
  | true =>
      have hheader := isHeader_of_run hrun
      have hcons : decoratorRun ((l :: after).take (size + 1)) =
          l :: decoratorRun (after.take size) :=
        decoratorRun_cons_of_run hrun _
      have hlength := congrArg List.length hcons
      rw [List.length_cons] at hlength
      have hdrop : (l :: after).drop (decoratorRun ((l :: after).take (size + 1))).length =
          after.drop (decoratorRun (after.take size)).length := by
        rw [hlength]
        rfl
      rw [Line.methodName?_eq_none hheader, Line.taken_eq_zero after hheader, List.drop_zero,
        Option.toList_none, List.nil_append, Nat.sub_zero, methodNames, methodNames]
      by_cases hstop : size ≤ (decoratorRun (after.take size)).length
      · rw [methods_of_stop (Or.inr hstop), methods_of_stop (Or.inr (by omega))]
      · cases hrest : after.drop (decoratorRun (after.take size)).length with
        | nil =>
            rw [methods_of_stop (Or.inl hrest), methods_of_stop (Or.inl (hdrop.trans hrest))]
        | cons m rest =>
            have hsize :
                size + 1 - ((decoratorRun (after.take size)).length + 1 + 1) - m.taken rest =
                  size - ((decoratorRun (after.take size)).length + 1) - m.taken rest := by
              omega
            rw [methods_of_drop_eq_cons hrest (by omega),
              methods_of_drop_eq_cons (hdrop.trans hrest) (by omega), List.map_append,
              List.map_append, ← Option.toList_map, ← Option.toList_map, name_method?,
              name_method?, hlength, hsize]

end

/-- Induction over what the readers pass over. -/
theorem lines_induction {P : List Line → Prop} (nil : P [])
    (cons : ∀ l after, P (after.drop (l.taken after)) → P (l :: after))
    (ls : List Line) : P ls := by
  induction hlength : ls.length using Nat.strongRecOn generalizing ls with
  | ind n ih =>
      cases ls with
      | nil => exact nil
      | cons l after =>
          rw [List.length_cons] at hlength
          exact cons l after (ih _ (by rw [List.length_drop]; omega) _ rfl)

/-! ## Lines that are moved -/

theorem naming_shift (n : Nat) (d : Declaration) : (d.shift n).naming = d.naming := by
  cases d with
  | function f =>
      simp [Declaration.shift, Declaration.naming, FunctionDecl.naming, FunctionDecl.shift,
        CallSite.shift]
  | «class» c => simp [Declaration.shift, Declaration.naming, ClassDecl.naming, ClassDecl.shift,
      FunctionDecl.shift]

theorem namings_shift (options : OutlineOptions) (n : Nat) (ls : List Line) :
    namings options (ls.map (Line.shift n)) = namings options ls := by
  rw [namings, declarations_shift, List.map_map, namings]
  exact List.map_congr_left fun d _ => naming_shift n d

theorem map_eq_of_forall₂ {α β γ : Type} {R : α → β → Prop} {f : α → γ} {g : β → γ}
    (hview : ∀ a b, R a b → g b = f a) {as : List α} {bs : List β}
    (hlists : List.Forall₂ R as bs) : bs.map g = as.map f := by
  induction hlists with
  | nil => rfl
  | cons hhead _ ih => rw [List.map_cons, List.map_cons, hview _ _ hhead, ih]

theorem FunctionDecl.Alongside.name_eq {k : Nat} {f g : FunctionDecl} (h : f.Alongside k g) :
    g.name = f.name := by
  rw [h.1]

theorem namings_alongside (options : OutlineOptions) {k : Nat} {ls ms : List Line}
    (hlines : List.Forall₂ (Line.Alongside k) ls ms) :
    namings options ms = namings options ls := by
  refine map_eq_of_forall₂ (fun d d' h => ?_) (declarations_alongside options hlines)
  cases h with
  | @function f g h =>
      have hcalls : g.calls = f.calls.map (CallSite.moveRight k) := by rw [h.1]
      rw [Declaration.naming, Declaration.naming, FunctionDecl.naming, FunctionDecl.naming,
        h.name_eq, hcalls, List.map_map]
      rfl
  | @«class» c d h =>
      have hnames : d.methods.map (·.name) = c.methods.map (·.name) :=
        map_eq_of_forall₂ (fun _ _ hmethod => hmethod.name_eq) h.2.2
      have hname : d.name = c.name := by rw [h.1]
      rw [Declaration.naming, Declaration.naming, ClassDecl.naming, ClassDecl.naming,
        hnames, hname]

end SymbolGraph
