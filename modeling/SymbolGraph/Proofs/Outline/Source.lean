import Mathlib.Data.List.Forall2
import SymbolGraph.Analysis.Basic
set_option autoImplicit false

/-!
# Outlines of files

A file that has an outline has it from its content, whatever the options are. Files have
outlines when they have contents and the length of snippets is an integer; there is one for each
file, in order.
-/

namespace SymbolGraph

/-- The outline of a file is read from its content, with docstrings as the options have them. -/
theorem exists_length_of_outline {options : ReadingOptions} {f : SourceFile} {o : Outline}
    (houtline : f.outline options = .ok o) :
    ∃ length content, f.content = some content ∧
      o = Outline.read ⟨options.docstrings, length⟩ f.filePath f.name content := by
  unfold SourceFile.outline at houtline
  split at houtline
  · cases houtline
  · next content hcontent =>
    unfold SourceFile.outlineOf at houtline
    split at houtline
    · simp only at houtline
      split at houtline
      · cases houtline
      · exact ⟨_, content, hcontent, (Except.ok.inj houtline).symm⟩
    · exact ⟨_, content, hcontent, (Except.ok.inj houtline).symm⟩

/-- The outline of a file is read from its content. -/
theorem exists_read_of_outline {options : ReadingOptions} {f : SourceFile} {o : Outline}
    (houtline : f.outline options = .ok o) :
    ∃ reading content, f.content = some content ∧
      o = Outline.read reading f.filePath f.name content := by
  obtain ⟨length, content, hread⟩ := exists_length_of_outline houtline
  exact ⟨⟨options.docstrings, length⟩, content, hread⟩

/-- When the length of snippets is an integer, the outline is read with that length. -/
theorem outline_eq_read {options : ReadingOptions} {length : Int}
    (hlength : options.snippetLength.integer? = some length) {f : SourceFile} {content : Text}
    (hcontent : f.content = some content) :
    f.outline options =
      .ok (Outline.read ⟨options.docstrings, length⟩ f.filePath f.name content) := by
  simp [SourceFile.outline, hcontent, SourceFile.outlineOf, hlength]

/-- Files that have contents have outlines, when the length of snippets is an integer. -/
theorem exists_outline {options : ReadingOptions} {f : SourceFile} (hcontent : f.content.isSome)
    (hlength : options.snippetLength.integer?.isSome) : ∃ o, f.outline options = .ok o := by
  obtain ⟨content, hcontent⟩ := Option.isSome_iff_exists.mp hcontent
  obtain ⟨n, hn⟩ := Option.isSome_iff_exists.mp hlength
  exact ⟨_, outline_eq_read hn hcontent⟩

theorem outlines_forall₂ {options : ReadingOptions} {files : List SourceFile}
    {os : List Outline} (houtlines : outlines options files = .ok os) :
    List.Forall₂ (fun f o => f.outline options = .ok o) files os := by
  induction files generalizing os with
  | nil => exact Except.ok.inj houtlines ▸ List.Forall₂.nil
  | cons f files ih =>
      rw [outlines] at houtlines
      split at houtlines
      · cases houtlines
      · next o houtline =>
        cases hrest : outlines options files with
        | error fault =>
            rw [hrest] at houtlines
            cases houtlines
        | ok os' =>
            rw [hrest] at houtlines
            exact Except.ok.inj houtlines ▸ List.Forall₂.cons houtline (ih hrest)

theorem exists_outlines {options : ReadingOptions} {files : List SourceFile}
    (hcontent : ∀ f ∈ files, f.content.isSome)
    (hlength : options.snippetLength.integer?.isSome) :
    ∃ os, outlines options files = .ok os := by
  induction files with
  | nil => exact ⟨[], rfl⟩
  | cons f files ih =>
      obtain ⟨o, ho⟩ := exists_outline (hcontent f List.mem_cons_self) hlength
      obtain ⟨os, hos⟩ := ih fun f hf => hcontent f (List.mem_cons_of_mem _ hf)
      refine ⟨o :: os, ?_⟩
      rw [outlines, ho, hos]
      rfl

/-- There is one outline for each file, with the name and the path that the file gives. -/
theorem names_outlines {options : ReadingOptions} {files : List SourceFile} {os : List Outline}
    (houtlines : outlines options files = .ok os) :
    os.map (fun o => (o.moduleName, o.filePath)) =
      files.map fun f => (moduleNameOf f.name, some f.filePath) := by
  have hread := outlines_forall₂ houtlines
  clear houtlines
  induction hread with
  | nil => rfl
  | cons houtline _ ih =>
      obtain ⟨reading, content, -, rfl⟩ := exists_read_of_outline houtline
      rw [List.map_cons, List.map_cons, ih]
      rfl

end SymbolGraph
