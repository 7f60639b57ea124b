import SymbolGraph.Graph.Id
import SymbolGraph.Proofs.Text.Separator
set_option autoImplicit false

/-!
# Identifiers are taken apart

No identifier of a node holds a bar, whatever the names are that it is made of, so that the
identifier of an edge between two of them is split at its bars into source, relation and target.
Where the names hold neither bars nor colons and the scopes no bars, the identifier of a node
determines its parts. The line stands last and is a numeral, so that it is determined in any
case: what no file declares has line 0, and no declaration has.
-/

namespace SymbolGraph

open Text

/-- The text holds no character that an identifier puts between its parts. -/
structure Plain (t : Text) : Prop where
  colonFree : ':' ∉ t
  barFree : '|' ∉ t

instance : DecidablePred Plain := fun t =>
  decidable_of_iff (':' ∉ t ∧ '|' ∉ t) ⟨fun h => ⟨h.1, h.2⟩, fun h => ⟨h.colonFree, h.barFree⟩⟩

/-! ## Words and numerals -/

theorem NodeKind.plain_word (k : NodeKind) : Plain k.word := by
  cases k <;> exact ⟨by decide, by decide⟩

theorem NodeKind.word_inj {k k' : NodeKind} (heq : k.word = k'.word) : k = k' := by
  have hread := congrArg NodeKind.ofWord? heq
  rw [NodeKind.ofWord?_word, NodeKind.ofWord?_word] at hread
  exact Option.some.inj hread

theorem Relation.not_mem_word (r : Relation) : '|' ∉ r.word := by
  cases r <;> decide

theorem Relation.word_inj {r r' : Relation} (heq : r.word = r'.word) : r = r' := by
  have hread := congrArg Relation.ofWord? heq
  rw [Relation.ofWord?_word, Relation.ofWord?_word] at hread
  exact Option.some.inj hread

theorem plain_ofInt (n : Int) : Plain (Text.ofInt n) := by
  constructor
  · intro hmem
    obtain hdigit | hminus := isDigit_or_minus_of_mem_ofInt hmem
    · exact absurd hdigit (by decide)
    · exact absurd hminus (by decide)
  · intro hmem
    obtain hdigit | hminus := isDigit_or_minus_of_mem_ofInt hmem
    · exact absurd hdigit (by decide)
    · exact absurd hminus (by decide)

theorem plain_qualifiedName {c m : Text} (hc : Plain c) (hm : Plain m) :
    Plain (qualifiedName c m) := by
  constructor
  · simp [qualifiedName, hc.colonFree, hm.colonFree]
  · simp [qualifiedName, hc.barFree, hm.barFree]

/-! ## Identifiers of nodes -/

/-- The parts of an identifier with their bars replaced. -/
def idParts (scope : Text) (kind : NodeKind) (name : Text) (line : Int) : List Text :=
  [scope, kind.word, name, Text.ofInt line].map (replaceChar '|' '_')

theorem nodeId_eq_join (scope : Text) (kind : NodeKind) (name : Text) (line : Int) :
    nodeId scope kind name line = join [':'] (idParts scope kind name line) := rfl

/-- No identifier of a node holds a bar. -/
theorem nodeId_barFree (scope : Text) (kind : NodeKind) (name : Text) (line : Int) :
    '|' ∉ nodeId scope kind name line := by
  intro hmem
  rw [nodeId_eq_join] at hmem
  obtain hcolon | ⟨part, hpart, hbar⟩ := mem_join hmem
  · exact absurd hcolon (by decide)
  · obtain ⟨raw, -, rfl⟩ := List.mem_map.mp hpart
    exact not_mem_replaceChar (by decide) raw hbar

/-- An identifier with names that hold no bar has the names as they are. -/
theorem nodeId_eq_append {scope name : Text} (hscope : '|' ∉ scope) (hname : '|' ∉ name)
    (kind : NodeKind) (line : Int) :
    nodeId scope kind name line =
      ((scope ++ ':' :: kind.word) ++ ':' :: name) ++ ':' :: Text.ofInt line := by
  simp only [nodeId_eq_join, idParts, List.map_cons, List.map_nil,
    replaceChar_of_not_mem hscope, replaceChar_of_not_mem hname,
    replaceChar_of_not_mem kind.plain_word.barFree,
    replaceChar_of_not_mem (plain_ofInt line).barFree, join]
  simp

/-- Identifiers are equal only where all their parts are, if names are plain and scopes hold no
bar. Colons in a scope do no harm: the three last colons divide the identifier. -/
theorem nodeId_inj {scope scope' name name' : Text} {kind kind' : NodeKind} {line line' : Int}
    (hscope : '|' ∉ scope) (hname : Plain name) (hscope' : '|' ∉ scope') (hname' : Plain name')
    (heq : nodeId scope kind name line = nodeId scope' kind' name' line') :
    scope = scope' ∧ kind = kind' ∧ name = name' ∧ line = line' := by
  rw [nodeId_eq_append hscope hname.barFree, nodeId_eq_append hscope' hname'.barFree] at heq
  obtain ⟨hfront, hline⟩ :=
    append_cons_inj (plain_ofInt line).colonFree (plain_ofInt line').colonFree heq
  obtain ⟨hscopes, rfl⟩ := append_cons_inj hname.colonFree hname'.colonFree hfront
  obtain ⟨rfl, hkind⟩ :=
    append_cons_inj kind.plain_word.colonFree kind'.plain_word.colonFree hscopes
  exact ⟨rfl, NodeKind.word_inj hkind, rfl, ofInt_inj hline⟩

/-- The line stands last in an identifier, behind a colon. -/
theorem exists_nodeId_eq_append (scope : Text) (kind : NodeKind) (name : Text) (line : Int) :
    ∃ before : Text, nodeId scope kind name line = before ++ ':' :: Text.ofInt line := by
  refine ⟨join [':'] ([scope, kind.word, name].map (replaceChar '|' '_')), ?_⟩
  rw [nodeId_eq_join]
  simp [idParts, join, replaceChar_of_not_mem (plain_ofInt line).barFree]

/-- The line of an identifier is determined by it, whatever the names are. -/
theorem line_eq_of_nodeId_eq {scope scope' name name' : Text} {kind kind' : NodeKind}
    {line line' : Int} (heq : nodeId scope kind name line = nodeId scope' kind' name' line') :
    line = line' := by
  obtain ⟨before, hbefore⟩ := exists_nodeId_eq_append scope kind name line
  obtain ⟨before', hbefore'⟩ := exists_nodeId_eq_append scope' kind' name' line'
  rw [hbefore, hbefore'] at heq
  exact ofInt_inj (eq_of_append_cons_eq (plain_ofInt line).colonFree
    (plain_ofInt line').colonFree heq)

/-- An identifier ends in `:0` exactly if its line is 0. -/
theorem zero_suffix_nodeId_iff (scope : Text) (kind : NodeKind) (name : Text) (line : Int) :
    ":0".toList <:+ nodeId scope kind name line ↔ line = 0 := by
  obtain ⟨before, hbefore⟩ := exists_nodeId_eq_append scope kind name line
  have hzero : ":0".toList = ':' :: Text.ofInt 0 := by decide
  rw [hbefore, hzero]
  constructor
  · rintro ⟨before', heq⟩
    exact ofInt_inj (eq_of_append_cons_eq (plain_ofInt 0).colonFree
      (plain_ofInt line).colonFree heq).symm
  · rintro rfl
    exact ⟨before, rfl⟩

/-- What is declared on a line other than 0 has not the identifier of anything outside. -/
theorem nodeId_ne_externalId {line : Int} (hline : line ≠ 0) (scope : Text)
    (kind kind' : NodeKind) (name name' : Text) :
    nodeId scope kind name line ≠ externalId kind' name' :=
  fun heq => hline (line_eq_of_nodeId_eq heq)

/-- The identifiers of things outside are equal only where kind and name are, even if the names
hold colons: these stand behind all other parts but the line. -/
theorem externalId_inj {kind kind' : NodeKind} {name name' : Text} (hname : '|' ∉ name)
    (hname' : '|' ∉ name') (heq : externalId kind name = externalId kind' name') :
    kind = kind' ∧ name = name' := by
  have hform : ∀ (k : NodeKind) {n : Text}, '|' ∉ n →
      externalId k n = externalScope ++ ':' :: (k.word ++ ':' :: (n ++ ":0".toList)) := by
    intro k n hn
    have hbars : replaceChar '|' '_' externalScope = externalScope :=
      replaceChar_of_not_mem (by decide)
    have hline : replaceChar '|' '_' (Text.ofInt 0) = ['0'] := by decide
    simp only [externalId, nodeId_eq_join, idParts, List.map_cons, List.map_nil, hbars, hline,
      replaceChar_of_not_mem k.plain_word.barFree, replaceChar_of_not_mem hn, join]
    simp
  rw [hform kind hname, hform kind' hname'] at heq
  have hbehind := List.append_cancel_left heq
  have hsplit := congrArg (split ':') (List.cons.inj hbehind).2
  rw [split_append_cons _ kind.plain_word.colonFree,
    split_append_cons _ kind'.plain_word.colonFree] at hsplit
  obtain rfl := NodeKind.word_inj (List.cons.inj hsplit).1
  have hnames := (List.cons.inj (List.append_cancel_left (List.cons.inj hbehind).2)).2
  exact ⟨rfl, List.append_cancel_right hnames⟩

/-- The kind of something outside is told by its identifier, whatever the names are. -/
theorem kind_eq_of_externalId_eq {kind kind' : NodeKind} {name name' : Text}
    (heq : externalId kind name = externalId kind' name') : kind = kind' := by
  have hbars : ∀ (k : NodeKind) (n : Text), externalId k n =
      externalId k (replaceChar '|' '_' n) := by
    intro k n
    have hfree : '|' ∉ replaceChar '|' '_' n := not_mem_replaceChar (by decide) n
    simp only [externalId, nodeId_eq_join, idParts, List.map_cons, replaceChar_of_not_mem hfree]
  rw [hbars kind, hbars kind'] at heq
  exact (externalId_inj (not_mem_replaceChar (by decide) name)
    (not_mem_replaceChar (by decide) name') heq).1

/-! ## Identifiers of edges -/

namespace Link

/-- The ends of the link hold no bar. -/
structure BarFree (l : Link) : Prop where
  source : '|' ∉ l.source
  target : '|' ∉ l.target

/-- The identifier of an edge is split at its bars into source, relation and target. -/
theorem split_id {l : Link} (hfree : l.BarFree) :
    split '|' l.id = [l.source, l.relation.word, l.target] := by
  refine split_join (List.cons_ne_nil _ _) ?_
  intro part hpart
  simp only [List.mem_cons, List.not_mem_nil, or_false] at hpart
  obtain rfl | rfl | rfl := hpart
  · exact hfree.source
  · exact l.relation.not_mem_word
  · exact hfree.target

/-- Links whose ends hold no bar are equal when their identifiers are. -/
theorem eq_of_id_eq {l l' : Link} (hfree : l.BarFree) (hfree' : l'.BarFree)
    (heq : l.id = l'.id) : l = l' := by
  have hsplit := congrArg (split '|') heq
  rw [split_id hfree, split_id hfree'] at hsplit
  simp only [List.cons.injEq, and_true] at hsplit
  obtain ⟨hsource, hrelation, htarget⟩ := hsplit
  cases l
  cases l'
  simp only at hsource hrelation htarget
  rw [hsource, Relation.word_inj hrelation, htarget]

end Link

end SymbolGraph
