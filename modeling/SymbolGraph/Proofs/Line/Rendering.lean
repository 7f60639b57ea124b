import SymbolGraph.Line.Basic
import SymbolGraph.Proofs.Text.CommaList
set_option autoImplicit false

/-!
# Reading what is written on a line

The recognisers go through a line from left to right. One that has read what was written for it
goes on with the rest: a word is taken off the front, a run ends where another character stands,
and one blank in front of something visible is skipped and not given back.
-/

namespace SymbolGraph

open Text

/-! ## Blanks -/

theorem isSpace_of_isIndent {c : Char} (hc : isIndent c = true) : isSpace c = true := by
  rcases Bool.or_eq_true_iff.mp hc with hspace | htab
  · rw [eq_of_beq hspace]
    decide
  · rw [eq_of_beq htab]
    decide

section

variable {α : Type} {read : Text → Option α} {t : Text}

/-- Where no blank stands none is skipped. -/
theorem afterBlanks_of_head (hhead : ∀ c ∈ t.head?, isSpace c = false) :
    afterBlanks read t = read t := by
  cases t with
  | nil => rfl
  | cons c t =>
      have hc : isSpace c = false := hhead c rfl
      rw [afterBlanks, hc, if_neg Bool.false_ne_true]

/-- One blank in front of something visible is skipped. -/
theorem afterBlanks_blank {a : α} (hhead : ∀ c ∈ t.head?, isSpace c = false)
    (hread : read t = some a) : afterBlanks read (' ' :: t) = some a := by
  rw [afterBlanks, if_pos (by decide), afterBlanks_of_head hhead, hread]

theorem afterSomeBlanks_blank (hhead : ∀ c ∈ t.head?, isSpace c = false) :
    afterSomeBlanks read (' ' :: t) = read t := by
  rw [afterSomeBlanks, if_pos (by decide), afterBlanks_of_head hhead]

end

/-! ## The rest of a line -/

theorem wholeLine?_eq_some {t : Text} (hline : '\n' ∉ t) : wholeLine? t = some t := by
  rw [wholeLine?, List.dropWhile_eq_nil_iff.mpr (forall_ne_of_not_mem hline)]

theorem nonemptyLine?_eq_some {t : Text} (hne : t ≠ []) (hline : '\n' ∉ t) :
    nonemptyLine? t = some t := by
  rw [nonemptyLine?, wholeLine?_eq_some hline]
  exact Option.filter_some_pos (decide_eq_true hne)

/-! ## Lines from a place on -/

/-- The lines with the given texts, the first of them at place `n`. -/
def Line.scanFrom (n : Nat) (texts : List Text) :
    List Line := texts.mapIdx fun i => Line.ofText (n + i)

namespace Line

variable (n : Nat) (texts : List Text)

theorem scanFrom_cons (t : Text) :
    scanFrom n (t :: texts) = ofText n t :: scanFrom (n + 1) texts := by
  simp only [scanFrom, List.mapIdx_cons, Nat.add_zero, Nat.add_assoc, Nat.add_comm 1]

theorem scanFrom_append (rest : List Text) :
    scanFrom n (texts ++ rest) = scanFrom n texts ++ scanFrom (n + texts.length) rest := by
  simp only [scanFrom, List.mapIdx_append, Nat.add_assoc, Nat.add_comm texts.length]

theorem length_scanFrom : (scanFrom n texts).length = texts.length := List.length_mapIdx

theorem scan_eq_scanFrom (t : Text) : scan t = scanFrom 0 (lines t) := by
  simp only [scan, scanFrom, Nat.zero_add]

variable {n texts}

theorem exists_of_mem_scanFrom {l : Line} (hl : l ∈ scanFrom n texts) :
    ∃ i, ∃ t ∈ texts, l = ofText i t := by
  obtain ⟨i, hi, rfl⟩ := List.mem_mapIdx.mp hl
  exact ⟨n + i, _, List.getElem_mem hi, rfl⟩

end Line

/-! ## Forms -/

theorem getElem?_scan {t raw : Text} {i : Nat} (hline : (Text.lines t)[i]? = some raw) :
    (Line.scan t)[i]? = some (Line.ofText i raw) := by
  rw [Line.scan, List.getElem?_mapIdx, hline]
  rfl

/-- The form of a line that starts with something visible, other than a comment or a decorator,
is what the recognisers find behind its indentation. -/
theorem LineForm.ofText_indented {indent t : Text} {c : Char}
    (hindent : ∀ d ∈ indent, isIndent d = true) (hvisible : isSpace c = false)
    (hcomment : c ≠ '#') (hdecorator : c ≠ '@') :
    LineForm.ofText (indent ++ c :: t) =
      ((classHeader? (c :: t)) <|> (functionHeader? (c :: t)) <|> (fromImport? (c :: t)) <|>
        (plainImport? (c :: t)) <|> (assignment? indent (c :: t))).getD .statement := by
  have hspaces : ∀ d ∈ indent, isSpace d = true :=
    fun d hd => isSpace_of_isIndent (hindent d hd)
  have hhead : ∀ d ∈ (c :: t).head?, isIndent d = false := by
    refine forall_head?_cons (Bool.eq_false_iff.mpr fun hc => ?_) t
    exact absurd (hvisible.symm.trans (isSpace_of_isIndent hc)) Bool.false_ne_true
  have htrim : trim (indent ++ c :: t) = c :: (t.reverse.dropWhile isSpace).reverse := by
    rw [trim, trimBy_append_left hspaces, trimBy_cons hvisible]
  unfold ofText
  rw [htrim, takeWhile_run hindent hhead, dropWhile_run hindent hhead]
  split
  · next hnil => cases hnil
  · next heq => exact absurd (List.cons.inj heq).1 hcomment
  · dsimp only
    split
    · next heq => exact absurd (List.cons.inj heq).1 hdecorator
    · rfl

end SymbolGraph
