import SymbolGraph.Line.Basic
import SymbolGraph.Proofs.Graph.Identifier
set_option autoImplicit false

/-!
# Names on lines are identifiers

Whatever a line looks like, the name that a class header, a function header or an assignment
gives is an identifier: an ASCII letter or an underscore, then word characters. So it is not
empty, and it holds none of the characters that stand between the parts of a node's identifier.
-/

namespace SymbolGraph

open Text

/-- An ASCII letter or an underscore, then word characters. -/
def IsIdentifier : Text → Prop
  | [] => False
  | c :: cs => isNameStart c = true ∧ ∀ d ∈ cs, isWord d = true

/-- A name of one segment: not empty, without dots, and plain. -/
structure IsSegment (t : Text) : Prop where
  ne_nil : t ≠ []
  dotFree : '.' ∉ t
  plain : Plain t

instance : DecidablePred IsSegment := fun t =>
  decidable_of_iff (t ≠ [] ∧ '.' ∉ t ∧ Plain t)
    ⟨fun h => ⟨h.1, h.2.1, h.2.2⟩, fun h => ⟨h.ne_nil, h.dotFree, h.plain⟩⟩

namespace IsIdentifier

theorem ne_nil {t : Text} (ht : IsIdentifier t) : t ≠ [] := by
  rintro rfl
  exact ht

/-- A character that neither starts an identifier nor goes on with it is in none. -/
theorem not_mem {t : Text} (ht : IsIdentifier t) {c : Char} (hstart : isNameStart c = false)
    (hword : isWord c = false) : c ∉ t := by
  cases t with
  | nil => exact List.not_mem_nil
  | cons d ds =>
      intro hc
      obtain rfl | hc := List.mem_cons.mp hc
      · exact absurd (hstart.symm.trans ht.1) Bool.false_ne_true
      · exact absurd (hword.symm.trans (ht.2 c hc)) Bool.false_ne_true

theorem plain {t : Text} (ht : IsIdentifier t) : Plain t :=
  ⟨ht.not_mem (by decide) (by decide), ht.not_mem (by decide) (by decide)⟩

/-- Identifiers are names of one segment. -/
theorem isSegment {t : Text} (ht : IsIdentifier t) : IsSegment t :=
  ⟨ht.ne_nil, ht.not_mem (by decide) (by decide), ht.plain⟩

end IsIdentifier

/-! ## Reading an identifier -/

theorem isIdentifier_of_identifier? {t name rest : Text}
    (hread : identifier? t = some (name, rest)) : IsIdentifier name := by
  cases t with
  | nil => exact absurd hread.symm (Option.some_ne_none _)
  | cons c cs =>
      rw [identifier?] at hread
      split at hread
      · next hstart =>
        obtain ⟨rfl, -⟩ := Prod.mk.inj (Option.some.inj hread)
        exact ⟨hstart, List.all_eq_true.mp List.all_takeWhile⟩
      · exact absurd hread.symm (Option.some_ne_none _)

/-- What is read after blanks is read from some rest of the text. -/
theorem exists_read_of_afterBlanks {α : Type} {read : Text → Option α} {t : Text} {a : α}
    (hread : afterBlanks read t = some a) : ∃ rest, read rest = some a := by
  induction t with
  | nil => exact ⟨[], hread⟩
  | cons c cs ih =>
      rw [afterBlanks] at hread
      split at hread
      · split at hread
        · next hlater => exact ih (hlater.trans hread)
        · exact ⟨_, hread⟩
      · exact ⟨_, hread⟩

theorem exists_read_of_afterSomeBlanks {α : Type} {read : Text → Option α} {t : Text} {a : α}
    (hread : afterSomeBlanks read t = some a) : ∃ rest, read rest = some a := by
  cases t with
  | nil => exact absurd hread.symm (Option.some_ne_none a)
  | cons c cs =>
      rw [afterSomeBlanks] at hread
      split at hread
      · exact exists_read_of_afterBlanks hread
      · exact absurd hread.symm (Option.some_ne_none a)

/-! ## Forms -/

/-- The name that a form gives, if it gives one, is an identifier. -/
def LineForm.NamesIdentifier : LineForm → Prop
  | classHeader name _ => IsIdentifier name
  | functionHeader _ name _ _ => IsIdentifier name
  | assignment _ name _ => IsIdentifier name
  | _ => True

theorem namesIdentifier_of_classHeader? {t : Text} {form : LineForm}
    (hread : classHeader? t = some form) : form.NamesIdentifier := by
  simp only [classHeader?, Option.bind_eq_bind, Option.bind_eq_some_iff] at hread
  obtain ⟨rest, -, ⟨name, rest'⟩, hname, hform⟩ := hread
  obtain ⟨start, hstart⟩ := exists_read_of_afterSomeBlanks hname
  have hidentifier := isIdentifier_of_identifier? hstart
  split at hform <;> split at hform
  · exact Option.some.inj hform ▸ hidentifier
  · exact absurd hform.symm (Option.some_ne_none form)
  · exact Option.some.inj hform ▸ hidentifier
  · exact absurd hform.symm (Option.some_ne_none form)

theorem namesIdentifier_of_functionHeader? {t : Text} {form : LineForm}
    (hread : functionHeader? t = some form) : form.NamesIdentifier := by
  simp only [functionHeader?, Option.bind_eq_bind, Option.bind_eq_some_iff] at hread
  obtain ⟨rest, -, ⟨name, rest'⟩, hname, ⟨parameters, rest''⟩, -, hform⟩ := hread
  obtain ⟨start, hstart⟩ := exists_read_of_afterSomeBlanks hname
  have hidentifier := isIdentifier_of_identifier? hstart
  split at hform
  · obtain ⟨hint, -, rfl⟩ := Option.map_eq_some_iff.mp hform
    exact hidentifier
  · split at hform
    · exact Option.some.inj hform ▸ hidentifier
    · exact absurd hform.symm (Option.some_ne_none form)

theorem namesIdentifier_of_assignment? {indent t : Text} {form : LineForm}
    (hread : assignment? indent t = some form) : form.NamesIdentifier := by
  simp only [assignment?, Option.bind_eq_bind, Option.bind_eq_some_iff] at hread
  obtain ⟨⟨name, rest⟩, hname, rest', -, value, -, hform⟩ := hread
  rw [← Option.some.inj hform]
  exact isIdentifier_of_identifier? hname

theorem namesIdentifier_of_fromImport? {t : Text} {form : LineForm}
    (hread : fromImport? t = some form) : form.NamesIdentifier := by
  simp only [fromImport?, Option.bind_eq_bind, Option.bind_eq_some_iff] at hread
  obtain ⟨rest, -, start, -, rest', -, names, -, hform⟩ := hread
  rw [← Option.some.inj hform]
  trivial

theorem namesIdentifier_of_plainImport? {t : Text} {form : LineForm}
    (hread : plainImport? t = some form) : form.NamesIdentifier := by
  simp only [plainImport?, Option.bind_eq_bind, Option.bind_eq_some_iff] at hread
  obtain ⟨rest, -, names, -, hform⟩ := hread
  rw [← Option.some.inj hform]
  trivial

/-- The name that a line gives, if it gives one, is an identifier. -/
theorem namesIdentifier_ofText (raw : Text) : (LineForm.ofText raw).NamesIdentifier := by
  unfold LineForm.ofText
  split
  · trivial
  · trivial
  · simp only
    split
    · trivial
    · generalize hform : ((classHeader? _) <|> (functionHeader? _) <|> (fromImport? _) <|>
        (plainImport? _) <|> (assignment? _ _)) = form?
      cases form? with
      | none => trivial
      | some form =>
          simp only [Option.orElse_eq_orElse, Option.orElse_eq_or, Option.or_eq_some_iff]
            at hform
          obtain hclass | ⟨-, hfunction | ⟨-, hfrom | ⟨-, hplain | ⟨-, hassigned⟩⟩⟩⟩ := hform
          · exact namesIdentifier_of_classHeader? hclass
          · exact namesIdentifier_of_functionHeader? hfunction
          · exact namesIdentifier_of_fromImport? hfrom
          · exact namesIdentifier_of_plainImport? hplain
          · exact namesIdentifier_of_assignment? hassigned

end SymbolGraph
