import Mathlib.Data.List.TakeWhile
import SymbolGraph.Proofs.Line.Docstring
import SymbolGraph.Proofs.Outline.CallSite
import SymbolGraph.Proofs.Outline.Naming
set_option autoImplicit false

/-!
# Blank lines behind the last line

Blank lines that follow the last line of a file belong to every block that reaches to it, and to
every docstring that is still open there. Apart from that the readers do the same without them
(`Grown`), and since nothing is declared or called on them, nothing changes by name. There is
one exception. The scan for methods starts no later than on the last line of the class's block.
So if the docstring of a class takes in the whole block, the last line is looked at in spite of
it, and a blank line behind it keeps it from being found as a method (`namings_append_void`).
-/

namespace SymbolGraph

open Text

/-! ## Counts with further lines behind -/

/-- A number of lines out of `m`, and the number that it becomes when there are `v` further
lines: it stays, unless it is all of them and the further ones are taken in. -/
def Grown (m v n n' : Nat) : Prop := n ≤ m ∧ (n' = n ∨ n = m ∧ n' = m + v)

namespace Grown

variable {m v n n' : Nat}

theorem succ (h : Grown m v n n') : Grown (m + 1) v (n + 1) (n' + 1) := by
  unfold Grown at h ⊢
  omega

theorem exists_of_succ (h : Grown (m + 1) v (n + 1) n') : ∃ k, n' = k + 1 ∧ Grown m v n k := by
  refine ⟨n' - 1, ?_⟩
  unfold Grown at h ⊢
  omega

theorem eq_zero_of_succ (h : Grown (m + 1) v 0 n') : n' = 0 := by
  unfold Grown at h
  omega

/-- What is left of one number behind another. -/
theorem sub {k k' : Nat} (h : Grown m v n n') (hk : Grown m v k k') (hsmaller : k' = k) :
    Grown (m - k) v (n - k) (n' - k') := by
  unfold Grown at h hk ⊢
  omega

theorem zero (m v : Nat) : Grown m v 0 0 := ⟨m.zero_le, Or.inl rfl⟩

end Grown

/-- A line of blanks only: nothing is written on it that a reader could take for something. -/
structure Line.IsVoid (l : Line) : Prop where
  isBlank : l.isBlank = true
  unquoted : ∀ quote ∈ Docstring.quotes, breakOn? quote l.raw = none

section

variable {voids : List Line} (hvoids : ∀ l ∈ voids, l.IsVoid)
include hvoids

theorem block_append_void (indent : Int) (after : List Line) :
    block indent (after ++ voids) = block indent after ∨
      block indent after = after ∧ block indent (after ++ voids) = after ++ voids := by
  have hblock : block indent voids = voids :=
    List.takeWhile_eq_self_iff.mpr fun l hl =>
      Bool.or_eq_true_iff.mpr (Or.inl (hvoids l hl).isBlank)
  rw [block, List.takeWhile_append]
  split
  · next hlength =>
    have hafter : block indent after = after :=
      (block_isPrefix indent after).eq_of_length hlength
    refine Or.inr ⟨hafter, ?_⟩
    rw [← block, hblock]
  · exact Or.inl rfl

theorem block_grown (indent : Int) (after : List Line) :
    Grown after.length voids.length (block indent after).length
      (block indent (after ++ voids)).length := by
  refine ⟨(block_isPrefix indent after).length_le, ?_⟩
  rcases block_append_void hvoids indent after with heq | ⟨hafter, heq⟩
  · exact Or.inl (congrArg List.length heq)
  · refine Or.inr ⟨congrArg List.length hafter, ?_⟩
    rw [heq, List.length_append]

theorem taken_grown (l : Line) (after : List Line) :
    Grown after.length voids.length (l.taken after) (l.taken (after ++ voids)) := by
  unfold Line.taken
  split
  · exact block_grown hvoids l.indent after
  · exact .zero _ _

omit hvoids in
/-- What is left behind a number of lines. -/
theorem drop_grown {ls : List Line} {n n' : Nat} (h : Grown ls.length voids.length n n') :
    n' = n ∧ (ls ++ voids).drop n' = ls.drop n ++ voids ∨
      ls.drop n = [] ∧ (ls ++ voids).drop n' = [] := by
  obtain ⟨hle, rfl | ⟨rfl, rfl⟩⟩ := h
  · exact Or.inl ⟨rfl, List.drop_append_of_le_length hle⟩
  · refine Or.inr ⟨List.drop_length, ?_⟩
    rw [← List.length_append, List.drop_length]

/-! ## Docstrings -/

theorem untilQuote_grown {quote : Text} (hquote : quote ∈ Docstring.quotes) (ls : List Line) :
    Grown ls.length voids.length (Docstring.untilQuote quote ls).2
      (Docstring.untilQuote quote (ls ++ voids)).2 := by
  induction ls with
  | nil =>
      refine ⟨Nat.le_refl 0, Or.inr ⟨rfl, ?_⟩⟩
      rw [List.nil_append, List.length_nil, Nat.zero_add]
      induction voids with
      | nil => rfl
      | cons l voids ih =>
          have hnone := (hvoids l List.mem_cons_self).unquoted quote hquote
          rw [Docstring.untilQuote, hnone]
          exact congrArg (· + 1) (ih fun m hm => hvoids m (List.mem_cons_of_mem l hm))
  | cons l ls ih =>
      rw [List.cons_append, Docstring.untilQuote, Docstring.untilQuote]
      cases breakOn? quote l.raw with
      | some parts => exact ⟨Nat.succ_pos _, Or.inl rfl⟩
      | none => exact ih.succ

theorem capture_grown {quote : Text} (hquote : quote ∈ Docstring.quotes)
    (rest : Text) (l : Line) (later : List Line) :
    Grown later.length voids.length (Docstring.capture quote rest l later).2
      (Docstring.capture quote rest l (later ++ voids)).2 := by
  unfold Docstring.capture
  cases breakOn? quote rest with
  | some parts => exact .zero _ _
  | none => exact untilQuote_grown hvoids hquote later

/-- The body starts at the same place behind the docstring, or nowhere in the block. -/
theorem read_grown (indent : Int) {after : List Line} {size size' : Nat}
    (hsize : Grown after.length voids.length size size') :
    (Docstring.read indent size' (after ++ voids)).bodyOffset =
      (Docstring.read indent size after).bodyOffset ∨
      size ≤ (Docstring.read indent size after).bodyOffset ∧
        size ≤ (Docstring.read indent size' (after ++ voids)).bodyOffset := by
  induction after generalizing size size' with
  | nil =>
      obtain rfl : size = 0 := Nat.le_zero.mp hsize.1
      exact Or.inr ⟨Nat.zero_le _, Nat.zero_le _⟩
  | cons l after ih =>
      cases size with
      | zero => exact Or.inr ⟨Nat.zero_le _, Nat.zero_le _⟩
      | succ n =>
          obtain ⟨n', rfl, hn⟩ := hsize.exists_of_succ
          rw [List.cons_append]
          cases hblank : l.isBlank with
          | true =>
              rw [Docstring.read_cons_of_blank hblank, Docstring.read_cons_of_blank hblank]
              exact (ih hn).imp (congrArg (· + 1)) fun h =>
                ⟨Nat.succ_le_succ h.1, Nat.succ_le_succ h.2⟩
          | false =>
              rw [Docstring.read_cons_of_not_blank hblank,
                Docstring.read_cons_of_not_blank hblank]
              split
              · exact Or.inl rfl
              · cases hopening : Docstring.opening? l.content with
                | none => exact Or.inl rfl
                | some opening =>
                    have hquote := Docstring.mem_quotes_of_opening? hopening
                    have hsmall : n ≤ after.length := hn.1
                    obtain ⟨-, heq | ⟨hall, hmore⟩⟩ :=
                      capture_grown hvoids hquote opening.2 l after
                    · exact Or.inl (congrArg (· + 1) heq)
                    · refine Or.inr ⟨Nat.succ_le_succ ?_, Nat.succ_le_succ ?_⟩
                      · rw [hall]
                        exact hsmall
                      · rw [hmore]
                        exact Nat.le_add_right_of_le hsmall

theorem readIf_grown (wanted : Bool) (indent : Int) {after : List Line} {size size' : Nat}
    (hsize : Grown after.length voids.length size size') :
    (Docstring.readIf wanted indent size' (after ++ voids)).bodyOffset =
        (Docstring.readIf wanted indent size after).bodyOffset ∨
      size ≤ (Docstring.readIf wanted indent size after).bodyOffset ∧
        size ≤ (Docstring.readIf wanted indent size' (after ++ voids)).bodyOffset := by
  cases wanted with
  | false => exact Or.inl rfl
  | true => exact read_grown hvoids indent hsize

/-! ## Calls and methods -/

omit hvoids in
theorem isHeader_of_isVoid {l : Line} (hl : l.IsVoid) : l.form.isHeader = false := by
  rw [eq_of_beq hl.isBlank]
  rfl

theorem bodyCalls_void : bodyCalls voids = [] := by
  have hnone : voids.filter (fun l => ! (l.isBlank || l.form.isHeader)) = [] :=
    List.filter_eq_nil_iff.mpr fun l hl => by simp [(hvoids l hl).isBlank]
  rw [bodyCalls, hnone]
  rfl

/-- The calls of a body are the same when blank lines follow. -/
theorem bodyCalls_grown {body : List Line} {offset offset' : Nat}
    (hoffset : offset' = offset ∨ body.length ≤ offset ∧ body.length ≤ offset') :
    bodyCalls ((body ++ voids).drop offset') = bodyCalls (body.drop offset) := by
  have hvoid : bodyCalls (voids.drop (offset' - body.length)) = [] :=
    bodyCalls_void fun l hl => hvoids l (List.mem_of_mem_drop hl)
  rw [List.drop_append, bodyCalls_append, hvoid, List.append_nil]
  rcases hoffset with rfl | ⟨hbehind, hbehind'⟩
  · rfl
  · rw [List.drop_of_length_le hbehind, List.drop_of_length_le hbehind']

theorem methodNames_void (options : OutlineOptions) (size : Nat) :
    methodNames options size voids = [] := by
  induction voids generalizing size with
  | nil => exact methodNames_nil options size
  | cons l voids ih =>
      have hheader := isHeader_of_isVoid (hvoids l List.mem_cons_self)
      cases size with
      | zero => exact methodNames_zero options _
      | succ size =>
          rw [methodNames_cons, Line.methodName?_eq_none hheader,
            Line.taken_eq_zero voids hheader, List.drop_zero]
          exact ih (fun m hm => hvoids m (List.mem_cons_of_mem l hm)) _

theorem namings_void (options : OutlineOptions) : namings options voids = [] := by
  have hnone :=
    namings_append_of_no_header options (fun l hl => isHeader_of_isVoid (hvoids l hl)) []
  rwa [List.append_nil, namings_nil] at hnone

/-- The scan for methods finds none behind the lines. -/
theorem methodNames_grown (options : OutlineOptions) {ls : List Line} {size size' : Nat}
    (hsize : Grown ls.length voids.length size size') :
    methodNames options size' (ls ++ voids) = methodNames options size ls := by
  induction ls using lines_induction generalizing size size' with
  | nil =>
      rw [List.nil_append, methodNames_void hvoids, methodNames_nil]
  | cons l after ih =>
      cases size with
      | zero =>
          rw [hsize.eq_zero_of_succ, methodNames_zero, methodNames_zero]
      | succ n =>
          obtain ⟨n', rfl, hn⟩ := hsize.exists_of_succ
          have htaken := taken_grown hvoids l after
          rw [List.cons_append, methodNames_cons, methodNames_cons]
          refine congrArg (l.methodName?.toList ++ ·) ?_
          rcases drop_grown htaken with ⟨heq, hrest⟩ | ⟨hnil, hnil'⟩
          · rw [hrest]
            refine ih ?_
            rw [List.length_drop]
            exact hn.sub htaken heq
          · rw [hnil, hnil', methodNames_nil, methodNames_nil]

end

/-! ## What a header gives -/

/-- The names that a function calls. -/
def Line.callNames (wanted : Bool) (l : Line) (after : List Line) : List Text :=
  (bodyCalls ((block l.indent after).drop
    (Docstring.readIf wanted l.indent (block l.indent after).length after).bodyOffset)).map
      (·.name)

/-- The place among the lines behind a class header where the scan for methods starts. -/
def Line.scanStart (wanted : Bool) (l : Line) (after : List Line) : Nat :=
  min (Docstring.readIf wanted l.indent (block l.indent after).length after).bodyOffset
    ((block l.indent after).length - 1)

/-- The names of the methods of a class. -/
def Line.classMethodNames (options : OutlineOptions) (l : Line) (after : List Line) :
    List Text :=
  methodNames options ((block l.indent after).length - l.scanStart options.docstrings after)
    (after.drop (l.scanStart options.docstrings after))

theorem naming?_function (options : OutlineOptions) {l : Line} {async hint : Option Text}
    {name parameters : Text} (hform : l.form = .functionHeader async name parameters hint)
    (after : List Line) :
    l.naming? options after = some ⟨.function, name, l.callNames options.docstrings after⟩ := by
  rw [Line.naming?, Line.declaration?, hform]
  rfl

theorem naming?_class (options : OutlineOptions) {l : Line} {name : Text} {bases : Option Text}
    (hform : l.form = .classHeader name bases) (after : List Line) :
    l.naming? options after = some ⟨.class_, name, l.classMethodNames options after⟩ := by
  rw [Line.naming?, Line.declaration?, hform]
  rfl

theorem Line.methodName?_eq_none_of_name (l : Line) (hname : l.form.name ≠ "function_header") :
    l.methodName? = none := by
  unfold Line.methodName?
  cases hform : l.form with
  | functionHeader =>
      rw [hform] at hname
      exact absurd rfl hname
  | _ => rfl

/-- On the last line of some lines there is no method if it is not the header of one. -/
theorem methodNames_last (options : OutlineOptions) {ls : List Line}
    (hlast : ∀ last ∈ ls.getLast?, last.methodName? = none) :
    methodNames options (ls.length - (ls.length - 1)) (ls.drop (ls.length - 1)) = [] := by
  rcases List.eq_nil_or_concat' ls with rfl | ⟨front, last, rfl⟩
  · exact methodNames_zero options _
  · have hnone := hlast last List.getLast?_concat
    have hdrop : (front ++ [last]).drop ((front ++ [last]).length - 1) = [last] :=
      List.drop_left' (by simp)
    have hsize : (front ++ [last]).length - ((front ++ [last]).length - 1) = 0 + 1 := by
      rw [List.length_append, List.length_singleton]
      omega
    rw [hdrop, hsize, methodNames_cons, hnone, List.drop_nil, methodNames_nil]
    rfl

/-- If the line is the header of a class, and the last line behind it the header of a function
in the block of the class, then the docstring of the class ends in front of that. -/
def Line.SparesLast (wanted : Bool) (l : Line) (after : List Line) : Prop :=
  l.form.name = "class_header" → block l.indent after = after →
    ∀ last ∈ after.getLast?, last.form.name = "function_header" →
      (Docstring.readIf wanted l.indent after.length after).bodyOffset < after.length

instance (wanted : Bool) (l : Line) (after : List Line) :
    Decidable (l.SparesLast wanted after) :=
  inferInstanceAs (Decidable (_ → _ → ∀ last ∈ after.getLast?, _ → _))

section

variable {voids : List Line} (hvoids : ∀ l ∈ voids, l.IsVoid)
include hvoids

theorem callNames_append_void (wanted : Bool) (l : Line) (after : List Line) :
    l.callNames wanted (after ++ voids) = l.callNames wanted after := by
  have hoffset := readIf_grown hvoids wanted l.indent (block_grown hvoids l.indent after)
  unfold Line.callNames
  rcases block_append_void hvoids l.indent after with heq | ⟨hafter, heq⟩
  · rw [heq] at hoffset ⊢
    have hcalls :=
      @bodyCalls_grown [] (List.forall_mem_nil _) (block l.indent after) _ _ hoffset
    rw [List.append_nil] at hcalls
    rw [hcalls]
  · rw [heq] at hoffset ⊢
    rw [hafter] at hoffset ⊢
    rw [bodyCalls_grown hvoids hoffset]

/-- A class whose block ends before the last line has the same methods. -/
theorem classMethodNames_of_inside (options : OutlineOptions) {l : Line} {after : List Line}
    (heq : block l.indent (after ++ voids) = block l.indent after) :
    l.classMethodNames options (after ++ voids) = l.classMethodNames options after := by
  have hoffset :=
    readIf_grown hvoids options.docstrings l.indent (block_grown hvoids l.indent after)
  have hsize : (block l.indent after).length ≤ after.length :=
    (block_isPrefix l.indent after).length_le
  have hstart : l.scanStart options.docstrings (after ++ voids) =
      l.scanStart options.docstrings after := by
    unfold Line.scanStart
    rw [heq] at hoffset ⊢
    omega
  have hinside : l.scanStart options.docstrings after ≤ after.length := by
    unfold Line.scanStart
    omega
  unfold Line.classMethodNames
  rw [hstart, heq, List.drop_append_of_le_length hinside]
  refine methodNames_grown hvoids options ⟨?_, Or.inl rfl⟩
  rw [List.length_drop]
  omega

/-- So has a class whose block reaches to the last line, if the last line is not looked at in
spite of a docstring. -/
theorem classMethodNames_of_reaching (options : OutlineOptions) {l : Line} {after : List Line}
    (hspares : ∀ last ∈ after.getLast?, last.form.name = "function_header" →
      (Docstring.readIf options.docstrings l.indent after.length after).bodyOffset <
        after.length)
    (hne : voids ≠ []) (hafter : block l.indent after = after)
    (heq : block l.indent (after ++ voids) = after ++ voids) :
    l.classMethodNames options (after ++ voids) = l.classMethodNames options after := by
  have hoffset :=
    readIf_grown hvoids options.docstrings l.indent (block_grown hvoids l.indent after)
  have hmore : 0 < voids.length := List.length_pos_of_ne_nil hne
  unfold Line.classMethodNames Line.scanStart
  rw [heq, hafter] at hoffset ⊢
  rw [List.length_append] at hoffset ⊢
  by_cases hearly :
    (Docstring.readIf options.docstrings l.indent after.length after).bodyOffset < after.length
  · -- the scan starts at the same place, and goes on to the blank lines
    have hsame := hoffset.resolve_right fun h => Nat.not_le.mpr hearly h.1
    rw [hsame, Nat.min_eq_left (by omega), Nat.min_eq_left (by omega),
      List.drop_append_of_le_length (by omega)]
    refine methodNames_grown hvoids options ?_
    unfold Grown
    rw [List.length_drop]
    omega
  · -- the docstring takes the block in: of it at most the last line is scanned, which is no
    -- function header
    obtain ⟨hlate, hlate'⟩ : after.length ≤
          (Docstring.readIf options.docstrings l.indent after.length after).bodyOffset ∧
        after.length ≤ (Docstring.readIf options.docstrings l.indent
          (after.length + voids.length) (after ++ voids)).bodyOffset := by omega
    have hlast : ∀ last ∈ after.getLast?, last.methodName? = none := fun last hmem =>
      last.methodName?_eq_none_of_name fun hheader => hearly (hspares last hmem hheader)
    rw [Nat.min_eq_right (by omega : after.length - 1 ≤ _), methodNames_last options hlast,
      List.drop_append, List.drop_of_length_le (by omega), List.nil_append]
    exact methodNames_void (fun m hm => hvoids m (List.mem_of_mem_drop hm)) options _

theorem naming?_append_void (options : OutlineOptions) {l : Line} {after : List Line}
    (hspares : l.SparesLast options.docstrings after) (hne : voids ≠ []) :
    l.naming? options (after ++ voids) = l.naming? options after := by
  cases hform : l.form with
  | functionHeader async name parameters hint =>
      rw [naming?_function options hform, naming?_function options hform,
        callNames_append_void hvoids]
  | classHeader name bases =>
      rw [naming?_class options hform, naming?_class options hform]
      rcases block_append_void hvoids l.indent after with heq | ⟨hafter, heq⟩
      · rw [classMethodNames_of_inside hvoids options heq]
      · have hclass : l.form.name = "class_header" := by
          rw [hform]
          rfl
        rw [classMethodNames_of_reaching hvoids options (hspares hclass hafter) hne hafter heq]
  | _ =>
      have hheader : l.form.isHeader = false := by
        rw [hform]
        rfl
      rw [Line.naming?_eq_none options _ hheader, Line.naming?_eq_none options _ hheader]

/-- Blank lines behind the last line change nothing by name, if no class has a docstring that
takes in a last line which is the header of a function. -/
theorem namings_append_void (options : OutlineOptions) {ls : List Line}
    (hspares : voids ≠ [] → ∀ l after, l :: after <:+ ls →
      l.SparesLast options.docstrings after) :
    namings options (ls ++ voids) = namings options ls := by
  by_cases hne : voids = []
  · rw [hne, List.append_nil]
  replace hspares := hspares hne
  induction ls using lines_induction with
  | nil => rw [List.nil_append, namings_void hvoids, namings_nil]
  | cons l after ih =>
      have hrest := ih fun m rest hsuffix => hspares m rest
        (hsuffix.trans ((List.drop_suffix _ after).trans (List.suffix_cons l after)))
      rw [List.cons_append, namings_cons, namings_cons,
        naming?_append_void hvoids options (hspares l after (List.suffix_refl _)) hne]
      refine congrArg ((l.naming? options after).toList ++ ·) ?_
      rcases drop_grown (taken_grown hvoids l after) with ⟨-, hdrop⟩ | ⟨hnil, hnil'⟩
      · rw [hdrop, hrest]
      · rw [hnil, hnil']

end

end SymbolGraph
