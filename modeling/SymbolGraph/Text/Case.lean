import SymbolGraph.Text.CaseTable
set_option autoImplicit false

/-!
# Upper and lower case

The full case mappings of texts. Every character is mapped on its own, except the capital sigma:
at the end of a word, after a cased letter and with none to follow, it becomes the final sigma.
Characters that may stand inside words without ending them are passed over in that search.
-/

namespace SymbolGraph.Text

/-- Maps one character by a table of runs and a table of expansions. -/
def mapCase (runs : List CaseRun) (expansions : List (Nat × List Nat)) (c : Char) : Text :=
  match expansions.lookup c.toNat with
  | some codes => codes.map Char.ofNat
  | none =>
    match runs.find? (·.holds c.toNat) with
    | some r => [Char.ofNat (c.toNat + r.shift).toNat]
    | none => [c]

/-- The upper-case form of a text. -/
def upper (t : Text) : Text := t.flatMap (mapCase upperRuns upperExpansions)

/-- The nearest character of a list that is not passed over is a cased letter. -/
def meetsCased (t : Text) : Bool :=
  match t.find? (fun c => ! inRanges caseIgnorableRanges c) with
  | some c => inRanges casedRanges c
  | none => false

/-- The lower-case form of a character between `before`, read backwards, and `after`. -/
def lowerBetween (before : Text) (c : Char) (after : Text) : Text :=
  if c = 'Σ' then
    if meetsCased before && ! meetsCased after then ['ς'] else ['σ']
  else mapCase lowerRuns lowerExpansions c

/-- The lower-case form of a text that follows `before`, read backwards. -/
def lowerAfter (before : Text) : Text → Text
  | [] => []
  | c :: cs => lowerBetween before c cs ++ lowerAfter (c :: before) cs

/-- The lower-case form of a text. -/
def lower (t : Text) : Text := lowerAfter [] t

end SymbolGraph.Text
