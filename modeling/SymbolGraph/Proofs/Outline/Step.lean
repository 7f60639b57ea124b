import SymbolGraph.Outline.Read
import SymbolGraph.Proofs.Line.Block
set_option autoImplicit false

/-!
# Reading step by step

The readers of declarations and of methods take one step for each run of decorators and the line
behind it: what the line declares is reported, and the line is passed over together with its
block if it is a header. So both readers are told by what one line gives (`Line.declaration?`,
`Line.method?`) and by how many lines it takes with it (`Line.taken`), and what holds of them is
shown by induction over their steps.
-/

namespace SymbolGraph

namespace Line

/-- The number of lines that are passed over with a line: those of its block if it is a
header. -/
def taken (l : Line) (after : List Line) : Nat :=
  if l.form.isHeader then (block l.indent after).length else 0

/-- The function that a line is the header of. -/
def method? (options : OutlineOptions) (decorators : List Text) (l : Line) (after : List Line) :
    Option FunctionDecl :=
  match l.form with
  | .functionHeader async name parameters hint =>
    some (FunctionHeader.declare { async, name, parameters, hint } options decorators l after)
  | _ => none

/-- The function or the class that a line is the header of. -/
def declaration? (options : OutlineOptions) (decorators : List Text) (l : Line)
    (after : List Line) : Option Declaration :=
  match l.form with
  | .functionHeader async name parameters hint =>
    some (.function
      (FunctionHeader.declare { async, name, parameters, hint } options decorators l after))
  | .classHeader name bases =>
      some (.class (declareClass options name bases decorators l after))
  | _ => none

theorem taken_le (l : Line) (after : List Line) : l.taken after ≤ after.length := by
  unfold taken
  split
  · exact (block_isPrefix _ _).length_le
  · exact Nat.zero_le _

end Line

/-! ## Declarations -/

/-- What is seen of the parts of one kind is what is seen of the whole, without the rest. -/
theorem filterMap_part {α β γ : Type} {part? : α → Option β} {view : β → γ} {whole : α → γ}
    {p : γ → Bool}
    (hpart : ∀ a, (part? a).map view = if p (whole a) then some (whole a) else none)
    (as : List α) : (as.filterMap part?).map view = (as.map whole).filter p := by
  rw [List.map_filterMap]
  induction as with
  | nil => rfl
  | cons a as ih =>
      rw [List.filterMap_cons, List.map_cons, List.filter_cons, ih, hpart]
      by_cases hp : p (whole a) <;> simp [hp]

/-- Where there are only decorators and blank lines, nothing is declared. -/
theorem declarations_of_drop_eq_nil {options : OutlineOptions} {ls : List Line}
    (hdrop : ls.drop (decoratorRun ls).length = []) : declarations options ls = [] := by
  rw [declarations]
  split
  · rfl
  · next l after hcons => exact absurd (hdrop.symm.trans hcons) (List.cons_ne_nil l after).symm

/-- The first line behind the decorators gives the first declaration, if it is a header. -/
theorem declarations_of_drop_eq_cons {options : OutlineOptions}
    {ls after : List Line} {l : Line} (hdrop : ls.drop (decoratorRun ls).length = l :: after) :
    declarations options ls =
      (l.declaration? options (decoratorTexts (decoratorRun ls)) after).toList
        ++ declarations options (after.drop (l.taken after)) := by
  rw [declarations]
  split
  · next hnil => exact absurd (hnil.symm.trans hdrop) (List.cons_ne_nil l after).symm
  · next l' after' hcons =>
    obtain ⟨rfl, rfl⟩ := List.cons.inj (hdrop.symm.trans hcons)
    simp only [Line.declaration?, Line.taken]
    cases l.form <;> rfl

/-- Blank lines in front declare nothing and decorate nothing. -/
theorem declarations_blank_append (options : OutlineOptions) {blanks : List Line}
    (hblanks : ∀ l ∈ blanks, l.isBlank = true) (ls : List Line) :
    declarations options (blanks ++ ls) = declarations options ls := by
  have hrun : decoratorRun (blanks ++ ls) = blanks ++ decoratorRun ls :=
    List.takeWhile_append_of_pos fun l hl => by simp [hblanks l hl]
  have hdrop : (blanks ++ ls).drop (decoratorRun (blanks ++ ls)).length =
      ls.drop (decoratorRun ls).length := by
    rw [hrun, List.length_append, List.drop_length_add_append]
  have htexts : decoratorTexts (decoratorRun (blanks ++ ls)) =
      decoratorTexts (decoratorRun ls) := by
    have hnone : blanks.filter (·.isDecorator) = [] := by
      refine List.filter_eq_nil_iff.mpr fun l hl => ?_
      have hform : l.form = .blank := eq_of_beq (hblanks l hl)
      simp [Line.isDecorator, hform]
    rw [hrun, decoratorTexts, List.filter_append, hnone]
    rfl
  cases hrest : ls.drop (decoratorRun ls).length with
  | nil =>
      rw [declarations_of_drop_eq_nil hrest, declarations_of_drop_eq_nil (hdrop.trans hrest)]
  | cons l after =>
      rw [declarations_of_drop_eq_cons hrest,
        declarations_of_drop_eq_cons (hdrop.trans hrest), htexts]

/-- Induction over the steps of the reader of declarations. -/
theorem declarations_induction {P : List Line → Prop}
    (stop : ∀ ls, ls.drop (decoratorRun ls).length = [] → P ls)
    (step : ∀ ls l after, ls.drop (decoratorRun ls).length = l :: after →
      P (after.drop (l.taken after)) → P ls) (ls : List Line) : P ls := by
  induction hlength : ls.length using Nat.strongRecOn generalizing ls with
  | ind n ih =>
      cases hdrop : ls.drop (decoratorRun ls).length with
      | nil => exact stop ls hdrop
      | cons l after =>
          have hshorter : (after.drop (l.taken after)).length < n := by
            have hlengths := congrArg List.length hdrop
            simp only [List.length_drop, List.length_cons] at hlengths ⊢
            omega
          exact step ls l after hdrop (ih _ hshorter _ rfl)

/-- Each declaration is given by one of the lines, together with those behind it. -/
theorem exists_of_mem_declarations {options : OutlineOptions} {ls : List Line} {d : Declaration}
    (hd : d ∈ declarations options ls) :
    ∃ decorators l after, l :: after <:+ ls ∧
    l.declaration? options decorators after = some d := by
  induction ls using declarations_induction with
  | stop ls hdrop =>
      rw [declarations_of_drop_eq_nil hdrop] at hd
      exact absurd hd List.not_mem_nil
  | step ls l after hdrop ih =>
      have hsuffix : l :: after <:+ ls := hdrop ▸ List.drop_suffix _ ls
      rw [declarations_of_drop_eq_cons hdrop, List.mem_append, Option.mem_toList] at hd
      rcases hd with hfirst | hlater
      · exact ⟨_, l, after, hsuffix, hfirst⟩
      · obtain ⟨decorators, l', after', hlines, hdeclares⟩ := ih hlater
        refine ⟨decorators, l', after', hlines.trans ?_, hdeclares⟩
        exact (List.drop_suffix _ after).trans ((List.suffix_cons l after).trans hsuffix)

/-! ## Methods -/

section

variable {options : OutlineOptions} {size : Nat} {ls : List Line}

/-- Where there are only decorators and blank lines within the size, there is no method. -/
theorem methods_of_stop (hstop : ls.drop (decoratorRun (ls.take size)).length = [] ∨
    size ≤ (decoratorRun (ls.take size)).length) : methods options size ls = [] := by
  rw [methods]
  split
  · rfl
  · next l after hcons =>
    have hsize := hstop.resolve_left fun hnil =>
      (List.cons_ne_nil l after) (hcons.symm.trans hnil)
    exact if_pos hsize

/-- The first line behind the decorators gives the first method, if it is the header of one. -/
theorem methods_of_drop_eq_cons {after : List Line} {l : Line}
    (hdrop : ls.drop (decoratorRun (ls.take size)).length = l :: after)
    (hsize : (decoratorRun (ls.take size)).length < size) :
    methods options size ls =
      (l.method? options (decoratorTexts (decoratorRun (ls.take size))) after).toList
        ++ methods options (size - ((decoratorRun (ls.take size)).length + 1) - l.taken after)
          (after.drop (l.taken after)) := by
  rw [methods]
  split
  · next hnil => exact absurd (hnil.symm.trans hdrop) (List.cons_ne_nil l after).symm
  · next l' after' hcons =>
    obtain ⟨rfl, rfl⟩ := List.cons.inj (hdrop.symm.trans hcons)
    rw [if_neg (Nat.not_le.mpr hsize)]
    simp only [Line.method?, Line.taken]
    cases l.form <;> rfl

end

/-- Induction over the steps of the reader of methods. -/
theorem methods_induction {P : Nat → List Line → Prop}
    (stop : ∀ size ls, (ls.drop (decoratorRun (ls.take size)).length = [] ∨
      size ≤ (decoratorRun (ls.take size)).length) → P size ls)
    (step : ∀ size ls l after, ls.drop (decoratorRun (ls.take size)).length = l :: after →
      (decoratorRun (ls.take size)).length < size →
      P (size - ((decoratorRun (ls.take size)).length + 1) - l.taken after)
        (after.drop (l.taken after)) → P size ls) (size : Nat) (ls : List Line) :
          P size ls := by
  induction hlength : ls.length using Nat.strongRecOn generalizing size ls with
  | ind n ih =>
      cases hdrop : ls.drop (decoratorRun (ls.take size)).length with
      | nil => exact stop size ls (Or.inl hdrop)
      | cons l after =>
          by_cases hsize : size ≤ (decoratorRun (ls.take size)).length
          · exact stop size ls (Or.inr hsize)
          · have hshorter : (after.drop (l.taken after)).length < n := by
              have hlengths := congrArg List.length hdrop
              simp only [List.length_drop, List.length_cons] at hlengths ⊢
              omega
            exact step size ls l after hdrop (Nat.not_le.mp hsize) (ih _ hshorter _ _ rfl)

/-- Each method is given by one of the lines, together with those behind it. -/
theorem exists_of_mem_methods {options : OutlineOptions} {size : Nat} {ls : List Line}
    {f : FunctionDecl} (hf : f ∈ methods options size ls) :
    ∃ decorators l after, l :: after <:+ ls ∧ l.method? options decorators after = some f := by
  induction size, ls using methods_induction with
  | stop size ls hstop =>
      rw [methods_of_stop hstop] at hf
      exact absurd hf List.not_mem_nil
  | step size ls l after hdrop hsize ih =>
      have hsuffix : l :: after <:+ ls := hdrop ▸ List.drop_suffix _ ls
      rw [methods_of_drop_eq_cons hdrop hsize, List.mem_append, Option.mem_toList] at hf
      rcases hf with hfirst | hlater
      · exact ⟨_, l, after, hsuffix, hfirst⟩
      · obtain ⟨decorators, l', after', hlines, hdeclares⟩ := ih hlater
        refine ⟨decorators, l', after', hlines.trans ?_, hdeclares⟩
        exact (List.drop_suffix _ after).trans ((List.suffix_cons l after).trans hsuffix)

end SymbolGraph
