import SymbolGraph.Proofs.Outline.Padding
set_option autoImplicit false

/-!
# A file indented as a whole

A text whose lines are all indented by the same number of blanks is read as the text itself. No
recogniser looks at the indentation of a line, and blocks are told by how indentations compare.
Blank lines and comments stay what they are, however they are indented. So the same is imported
and declared on the same lines, and the columns of calls are moved by the number of blanks.
Variables are another matter: they are looked for at the margin only.
-/

namespace SymbolGraph

namespace Text

/-- The text with `k` further blanks in front of each line. -/
def indented (k : Nat) (t : Text) : Text :=
  unlines ((split '\n' t).map (List.replicate k ' ' ++ ·))

/-- The lines of an indented text are those of the text, indented. -/
theorem lines_indented (k : Nat) {t : Text} (ht : '\r' ∉ t) :
    lines (indented k t) = (lines t).map (List.replicate k ' ' ++ ·) := by
  have hblank : ∀ c ≠ ' ', ∀ part ∈ (split '\n' t).map (List.replicate k ' ' ++ ·), c ∈ part →
      ∃ line ∈ split '\n' t, c ∈ line := by
    intro c hc part hpart hmem
    obtain ⟨line, hline, rfl⟩ := List.mem_map.mp hpart
    refine ⟨line, hline, (List.mem_append.mp hmem).resolve_left fun hpad => hc ?_⟩
    exact List.eq_of_mem_replicate hpad
  have hreturn : '\r' ∉ indented k t := by
    intro hmem
    rcases mem_join hmem with hglue | ⟨part, hpart, hc⟩
    · exact absurd hglue (by decide)
    · obtain ⟨line, hline, hc⟩ := hblank '\r' (by decide) part hpart hc
      exact ht (mem_of_mem_split hline hc)
  rw [lines, lines, normalizeNewlines_of_not_mem ht, normalizeNewlines_of_not_mem hreturn]
  refine split_join (by simp [split_ne_nil]) fun part hpart hc => ?_
  obtain ⟨line, hline, hc⟩ := hblank '\n' (by decide) part hpart hc
  exact not_mem_of_mem_split hline hc

end Text

open Text

/-! ## Line by line -/

theorem filterMap_of_forall₂ {α β γ : Type} {f : α → Option γ} {g : β → Option γ} {as : List α}
    {bs : List β} (hlists : List.Forall₂ (fun a b => g b = f a) as bs) :
    bs.filterMap g = as.filterMap f := by
  induction hlists with
  | nil => rfl
  | cons hhead _ ih => rw [List.filterMap_cons, List.filterMap_cons, hhead, ih]

section

variable (k : Nat) {t : Text} (ht : '\r' ∉ t)
include ht

/-- What relates each line to the line behind `k` blanks relates the text to the indented
text. -/
theorem forall₂_scan_indented {R : Line → Line → Prop}
    (hlines : ∀ i raw, R (Line.ofText i raw) (Line.ofText i (List.replicate k ' ' ++ raw))) :
    List.Forall₂ R (Line.scan t) (Line.scan (indented k t)) := by
  rw [Line.scan, Line.scan, lines_indented k ht, List.forall₂_iff_get]
  refine ⟨by simp, fun i hi _ => ?_⟩
  simpa using hlines i ((lines t).get ⟨i, by simpa using hi⟩)

/-- The lines of an indented text are alongside those of the text. -/
theorem scan_indented_alongside :
    List.Forall₂ (Line.Alongside k) (Line.scan t) (Line.scan (indented k t)) := by
  refine forall₂_scan_indented k ht fun i raw => ?_
  have halongside := alongside_append_left (isIndent_of_mem_blanks k) i raw
  rwa [List.length_replicate] at halongside

theorem imports_indented :
    (Line.scan (indented k t)).filterMap Line.import? = (Line.scan t).filterMap Line.import? :=
  filterMap_of_forall₂
    (forall₂_scan_indented k ht (import?_append_left (isIndent_of_mem_blanks k)))

end

/-- A text indented as a whole imports and declares the same on the same lines: classes keep
their names, bases, decorators and methods, functions their names, parameters, hints and
decorators, and the calls are as many columns further to the right as there are blanks. -/
theorem outline_indented (options : ReadingOptions) (name : Text) (path : Option Text)
    (k : Nat) (t : Text) (ht : '\r' ∉ t) (hlength : options.snippetLength.integer?.isSome) :
    ∃ o p, SourceFile.outline options ⟨name, some t, path⟩ = .ok o ∧
      SourceFile.outline options ⟨name, some (indented k t), path⟩ = .ok p ∧
      p.imports = o.imports ∧
      List.Forall₂ (ClassDecl.Alongside k) o.classes p.classes ∧
      List.Forall₂ (FunctionDecl.Alongside k) o.functions p.functions := by
  obtain ⟨length, hlength⟩ := Option.isSome_iff_exists.mp hlength
  have hlines := scan_indented_alongside k ht
  exact ⟨_, _, outline_eq_read hlength rfl, outline_eq_read hlength rfl, imports_indented k ht,
    classes_alongside _ _ _ hlines, functions_alongside _ _ _ hlines⟩

/-- A text with a comment at an indentation of its own. -/
def steppedText : Text :=
  "@d\nclass A(B):\n # c\n    def m(self):\n        f(1)\nimport os\ndef g():\n h.k()".toList

/-- Behind three more blanks the call of `h.k` is in column 5. -/
theorem outline_indented_steppedText :
    '\r' ∉ steppedText ∧
    ∃ p, SourceFile.outline ⟨false, .number 40⟩
      ⟨"m.py".toList, some (indented 3 steppedText), none⟩ = .ok p ∧
      p.imports.map (·.path) = ["os".toList] ∧
      p.functions.map (·.calls) = [[⟨"h.k".toList, 8, 5⟩]] := by
  obtain ⟨o, p, ho, hp, himports, -, hfunctions⟩ :=
    outline_indented ⟨false, .number 40⟩ "m.py".toList none 3 steppedText (by decide) rfl
  have hread : (SourceFile.outline ⟨false, .number 40⟩ ⟨"m.py".toList, some steppedText, none⟩
      ).toOption.map (fun o => (o.imports.map (·.path), o.functions.map (·.calls))) =
      some (["os".toList], [[⟨"h.k".toList, 8, 2⟩]]) := by decide +kernel
  rw [ho] at hread
  obtain ⟨hpaths, hcalls⟩ := Prod.mk.inj (Option.some.inj hread)
  obtain ⟨f, hf, hcalls⟩ := List.map_eq_singleton_iff.mp hcalls
  rw [hf] at hfunctions
  obtain ⟨g, _, hg, hnil, hp'⟩ := List.forall₂_cons_left_iff.mp hfunctions
  rw [List.forall₂_nil_left_iff] at hnil
  refine ⟨by decide, p, hp, by rw [himports, hpaths], ?_⟩
  rw [hp', hnil, List.map_singleton, hg.1, hcalls]
  rfl

end SymbolGraph
