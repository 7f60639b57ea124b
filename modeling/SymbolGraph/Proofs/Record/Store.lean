import SymbolGraph.Proofs.FileTree.Write
import SymbolGraph.Record.Store
set_option autoImplicit false

/-!
# Storing a graph over another

A file that is there is emptied before the text of the new graph is made. So what it held is
lost in either case: where there is a text, the file holds it, and where there is none, because
the graph cannot be ordered, is nested too deep or has half of a surrogate pair in it, the file
is left empty (`save_over_file`).
-/

namespace SymbolGraph

open FileTree

section

variable {t : FileTree} {p : Path} {place : List Points} {bytes : List UInt8}
  (hlocate : t.locate p .look = .ok (.taken place (.file bytes)))
include hlocate

/-- Where there is no text, the file is emptied. -/
theorem saveText_error (fault : StoreFault) :
    ∃ t', saveText t p (.error fault) = (t', some fault) ∧ Rewrites t t' place [] := by
  obtain ⟨emptied, hempty, hrewrites⟩ := exists_write hlocate []
  refine ⟨emptied, ?_, hrewrites⟩
  simp only [saveText, makeDirectories_parent hlocate, hempty]

/-- A text that is there is stored. -/
theorem saveText_ok (text : Text) :
    ∃ t', saveText t p (.ok text) = (t', none) ∧ Rewrites t t' place text.toBytes := by
  obtain ⟨emptied, hempty, hrewrites⟩ := exists_write hlocate []
  obtain ⟨stored, hstore, hrewrites'⟩ :=
    exists_write (hrewrites.locate p place bytes hlocate) text.toBytes
  refine ⟨stored, ?_, hrewrites.trans hrewrites'⟩
  simp only [saveText, makeDirectories_parent hlocate, hempty, hstore]

end

/-- Take any graph, and a file that can be read at the path where it is to be stored. If the
graph has a text, it is stored without a fault and the file holds the text. If it has none, the
fault is that of the text and the file is empty. So a graph that cannot be stored leaves what
was stored exactly if that was nothing. Files that the path does not lead to are left as they
were. -/
theorem save_over_file (g : GraphRecord) (t : FileTree) (p : Path) (bytes : List UInt8)
    (hread : t.read p = .ok bytes) :
    (∀ text, g.storedText = .ok text →
      (g.save t p).2 = none ∧ (g.save t p).1.read p = .ok text.toBytes) ∧
    (∀ fault, g.storedText = .error fault →
      (g.save t p).2 = some fault ∧ (g.save t p).1.read p = .ok []) ∧
    ((g.save t p).2 ≠ none → ((g.save t p).1.read p = .ok bytes ↔ bytes = [])) ∧
    ∀ q other, t.read q = .ok other → t.locate q .look ≠ t.locate p .look →
      (g.save t p).1.read q = .ok other := by
  obtain ⟨place, hlocate, hopen⟩ := read_eq_ok_iff.mp hread
  unfold GraphRecord.save
  cases g.storedText with
  | error fault =>
      obtain ⟨t', hsave, hrewrites⟩ := saveText_error hlocate fault
      have hempty := hrewrites.read_self hlocate hopen
      rw [hsave]
      refine ⟨nofun, fun fault' heq => ?_, fun _ => ?_, fun q other hq hne => ?_⟩
      · exact ⟨congrArg some (Except.error.inj heq), hempty⟩
      · rw [hempty]
        exact ⟨fun heq => (Except.ok.inj heq).symm, fun heq => congrArg Except.ok heq.symm⟩
      · exact hrewrites.read_other hlocate hq hne
  | ok text =>
      obtain ⟨t', hsave, hrewrites⟩ := saveText_ok hlocate text
      rw [hsave]
      refine ⟨fun text' heq => ?_, nofun, fun hfault => absurd rfl hfault,
        fun q other hq hne => ?_⟩
      · exact ⟨rfl, Except.ok.inj heq ▸ hrewrites.read_self hlocate hopen⟩
      · exact hrewrites.read_other hlocate hq hne

/-- A tree with a stored graph, which a link leads to, and another file. -/
def storedTree : FileTree :=
  { top := [(.ofString "graph.json", .link (.ofString "kept/g.json")),
      (.ofString "kept", .dir [(.ofString "g.json", .file [123, 125]),
        (.ofString "h.json", .file [91, 93])])] }

/-- A graph of two nodes, of which one has a number as its identifier. -/
def mixedIds : GraphRecord :=
  { nodes := [{ id := Json.ofString "a", label := Json.ofString "a", kind := .module_ },
      { id := .int 1, label := Json.ofString "b", kind := .module_ }] }

/-- What is stored beside the emptied file stays. -/
theorem save_over_file_mixedIds :
    storedTree.read (.ofText "graph.json".toList) = .ok [123, 125] ∧
    (mixedIds.save storedTree (.ofText "graph.json".toList)).2 = some (.record .wrongType) ∧
    (mixedIds.save storedTree (.ofText "graph.json".toList)).1.read
      (.ofText "kept/h.json".toList) = .ok [91, 93] := by
  have hread : storedTree.read (.ofText "graph.json".toList) = .ok [123, 125] := rfl
  have helsewhere : storedTree.locate (.ofText "kept/h.json".toList) .look ≠
      storedTree.locate (.ofText "graph.json".toList) .look := by
    intro heq
    obtain ⟨hnames, -⟩ := Place.taken.inj (Except.ok.inj heq)
    exact absurd hnames (by decide)
  obtain ⟨-, hfault, -, hother⟩ := save_over_file mixedIds storedTree _ _ hread
  exact ⟨hread, (hfault _ rfl).1, hother _ _ rfl helsewhere⟩

/-- A graph that cannot be ordered is not stored, and what was stored is lost. -/
theorem mixedIds_empties_file :
    storedTree.read (.ofText "graph.json".toList) = .ok [123, 125] ∧
    (mixedIds.save storedTree (.ofText "graph.json".toList)).2 = some (.record .wrongType) ∧
    (mixedIds.save storedTree (.ofText "graph.json".toList)).1.read
      (.ofText "graph.json".toList) = .ok [] :=
  ⟨rfl, rfl, rfl⟩

end SymbolGraph
