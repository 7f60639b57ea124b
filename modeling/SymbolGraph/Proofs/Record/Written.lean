import SymbolGraph.Proofs.FileTree.Create
import SymbolGraph.Proofs.Record.RoundTrip
import SymbolGraph.Record.Source
import SymbolGraph.Record.Store
set_option autoImplicit false

/-!
# Graphs that can be stored

A value without halves of surrogate pairs is written as a text, and one that is not nested
deeper than the writer goes has no fault but an integer with too many digits (`Whole.dump`).
Such is every graph of outlines of files whose names are texts (`storedText_build`). A graph is
stored by a path that admits a file. If the graph has a text, the file holds it; if not, the
file is there and holds nothing. All other files are as they were (`save_of_admits`). By any
other path no file is touched (`save_of_not_admits`).
-/

namespace SymbolGraph

/-- The string has no half of a surrogate pair. -/
def Points.IsText (s : Points) : Prop := ∃ t : Text, s = t.points

namespace Points.IsText

theorem points (t : Text) : Points.IsText t.points := ⟨t, rfl⟩

theorem nil : Points.IsText [] := ⟨[], rfl⟩

theorem append {s s' : Points} (hs : s.IsText) (hs' : s'.IsText) : Points.IsText (s ++ s') := by
  obtain ⟨t, rfl⟩ := hs
  obtain ⟨t', rfl⟩ := hs'
  exact ⟨t ++ t', List.map_append.symm⟩

theorem cons (c : Char) {s : Points} (hs : s.IsText) : Points.IsText (.char c :: s) :=
  append (points [c]) hs

theorem ofString (s : String) : (Points.ofString s).IsText := points s.toList

end Points.IsText

/-- The integer has more digits than there may be. -/
def JsonLimits.IsLong (limits : JsonLimits) (n : Int) : Prop :=
  limits.digits.any (· < (Text.ofNat n.natAbs).length) = true

instance (limits : JsonLimits) (n : Int) : Decidable (limits.IsLong n) :=
  inferInstanceAs (Decidable (_ = true))

namespace Json

/-- No string and no key in the value has half of a surrogate pair, lists and objects lie at
most so deep in each other, and the integers are such as `P` says. -/
inductive Whole (P : Int → Prop) : Nat → Json → Prop
  | null {depth : Nat} : Whole P depth .null
  | bool {depth : Nat} (b : Bool) : Whole P depth (.bool b)
  | int {depth : Nat} {n : Int} : P n → Whole P depth (.int n)
  | float {depth : Nat} (x : Binary64) : Whole P depth (.float x)
  | text {depth : Nat} (t : Text) : Whole P depth (.text t)
  | arr {depth : Nat} {vs : List Json} : (∀ v ∈ vs, Whole P depth v) →
      Whole P (depth + 1) (.arr vs)
  | obj {depth : Nat} {fs : Fields} : (∀ f ∈ fs, f.1.IsText) → (∀ f ∈ fs, Whole P depth f.2) →
      Whole P (depth + 1) (.obj fs)

variable {P : Int → Prop}

/-! ## Writing -/

open Points

theorem isText_writeString {s : Points} (hs : s.IsText) : (writeString s).IsText := by
  obtain ⟨t, rfl⟩ := hs
  have hinner : IsText (t.points.flatMap writePoint) := by
    induction t with
    | nil => exact .nil
    | cons c t ih => exact (IsText.points (writeChar c)).append ih
  exact ((IsText.points ['"']).append hinner).append (.points ['"'])

theorem isText_gap (indent : Option Text) (depth : Nat) : (gap indent depth).IsText := by
  cases indent with
  | none => exact .nil
  | some unit => exact .points ('\n' :: (List.replicate depth unit).flatten)

theorem isText_comma (indent : Option Text) (depth : Nat) : (comma indent depth).IsText := by
  cases indent with
  | none => exact .ofString ", "
  | some unit => exact .cons ',' (isText_gap (some unit) depth)

theorem isText_writeItems {indent : Option Text} {depth : Nat} {vs : List Json}
    (hvs : ∀ v ∈ vs, (writeAt indent depth v).IsText) :
    (writeItems indent depth vs).IsText := by
  induction vs with
  | nil => exact .nil
  | cons v vs ih =>
      obtain ⟨hv, hlater⟩ := List.forall_mem_cons.mp hvs
      exact ((isText_comma indent depth).append hv).append (ih hlater)

theorem isText_writeFields {indent : Option Text} {depth : Nat} {fs : Fields}
    (hkeys : ∀ f ∈ fs, f.1.IsText) (hfs : ∀ f ∈ fs, (writeAt indent depth f.2).IsText) :
    (writeFields indent depth fs).IsText := by
  induction fs with
  | nil => exact .nil
  | cons f fs ih =>
      obtain ⟨hkey, hkeys'⟩ := List.forall_mem_cons.mp hkeys
      obtain ⟨hf, hlater⟩ := List.forall_mem_cons.mp hfs
      exact ((((isText_comma indent depth).append (isText_writeString hkey)).append
        (.ofString ": ")).append hf).append (ih hkeys' hlater)

/-- A value without halves is written as a text. -/
theorem Whole.isText_writeAt {v : Json} {deepest : Nat} (hv : v.Whole P deepest)
    (indent : Option Text) (depth : Nat) : (writeAt indent depth v).IsText := by
  induction hv generalizing depth with
  | null => exact .ofString "null"
  | bool b => cases b with
    | true => exact .ofString "true"
    | false => exact .ofString "false"
  | @int _ n => exact .points (Text.ofInt n)
  | float x => exact .points (x.render "Infinity".toList "NaN".toList)
  | text t => exact isText_writeString (.points t)
  | @arr _ vs _ ih =>
      cases vs with
      | nil => exact .points ['[', ']']
      | cons v vs =>
          obtain ⟨hv, hlater⟩ := List.forall_mem_cons.mp ih
          have hitems := isText_writeItems fun w hw => hlater w hw (depth + 1)
          exact (((((IsText.points ['[']).append (isText_gap indent (depth + 1))).append
            (hv (depth + 1))).append hitems).append (isText_gap indent depth)).append
              (.points [']'])
  | @obj _ fs hkeys _ ih =>
      cases fs with
      | nil => exact .points ['\x7b', '\x7d']
      | cons f fs =>
          obtain ⟨hkey, hkeys'⟩ := List.forall_mem_cons.mp hkeys
          obtain ⟨hf, hlater⟩ := List.forall_mem_cons.mp ih
          have hfields := isText_writeFields hkeys' fun g hg => hlater g hg (depth + 1)
          exact (((((((IsText.points ['\x7b']).append (isText_gap indent (depth + 1))).append
            (isText_writeString hkey)).append (.ofString ": ")).append (hf (depth + 1))).append
            hfields).append (isText_gap indent depth)).append (.points ['\x7d'])

/-! ## Limits -/

theorem exists_of_itemsFault? {limits : JsonLimits} {fault : JsonFault} {vs : List Json}
    (hfault : itemsFault? limits vs = some fault) :
    ∃ v ∈ vs, v.limitFault? limits = some fault := by
  induction vs with
  | nil => cases hfault
  | cons v vs ih =>
      rw [itemsFault?, Option.or_eq_some_iff] at hfault
      rcases hfault with hv | ⟨-, hlater⟩
      · exact ⟨v, List.mem_cons_self, hv⟩
      · obtain ⟨w, hw, hfault⟩ := ih hlater
        exact ⟨w, List.mem_cons_of_mem v hw, hfault⟩

theorem exists_of_fieldsFault? {limits : JsonLimits} {fault : JsonFault} {fs : Fields}
    (hfault : fieldsFault? limits fs = some fault) :
    ∃ f ∈ fs, f.2.limitFault? limits = some fault := by
  induction fs with
  | nil => cases hfault
  | cons f fs ih =>
      rw [fieldsFault?, Option.or_eq_some_iff] at hfault
      rcases hfault with hf | ⟨-, hlater⟩
      · exact ⟨f, List.mem_cons_self, hf⟩
      · obtain ⟨f', hf', hfault⟩ := ih hlater
        exact ⟨f', List.mem_cons_of_mem f hf', hfault⟩

theorem inside?_of_le {limits : JsonLimits} {depth : Nat}
    (hdepth : ∀ most, limits.depth = some most → depth + 1 ≤ most) :
    ∃ inner, limits.inside? = some inner ∧ inner.digits = limits.digits ∧
      ∀ most, inner.depth = some most → depth ≤ most := by
  unfold JsonLimits.inside?
  split
  · next hnone => exact ⟨_, rfl, rfl, fun most hmost => nomatch hnone.symm.trans hmost⟩
  · next hzero => exact absurd (hdepth 0 hzero) (Nat.not_succ_le_zero _)
  · next below hbelow =>
    refine ⟨_, rfl, rfl, fun most hmost => ?_⟩
    rw [← Option.some.inj hmost]
    exact Nat.le_of_succ_le_succ (hdepth _ hbelow)

/-- A value that is nested no deeper than the limit has no fault but an integer with too many
digits. -/
theorem Whole.exists_isLong {v : Json} {depth : Nat} (hv : v.Whole P depth)
    {limits : JsonLimits} (hdepth : ∀ most, limits.depth = some most → depth ≤ most)
    {fault : JsonFault} (hfault : v.limitFault? limits = some fault) :
    ∃ n, P n ∧ limits.IsLong n ∧ fault = .longNumeral (Text.ofNat n.natAbs).length := by
  induction hv generalizing limits with
  | null => cases hfault
  | bool => cases hfault
  | float => cases hfault
  | text => cases hfault
  | @int _ n hn =>
      rw [limitFault?] at hfault
      split at hfault
      · next hlong => exact ⟨n, hn, hlong, (Option.some.inj hfault).symm⟩
      · cases hfault
  | arr _ ih =>
      obtain ⟨inner, hinner, hdigits, hbelow⟩ := inside?_of_le hdepth
      rw [limitFault?, hinner] at hfault
      obtain ⟨v, hv, hfault⟩ := exists_of_itemsFault? hfault
      obtain ⟨n, hn, hlong, rfl⟩ := ih v hv hbelow hfault
      rw [JsonLimits.IsLong, hdigits] at hlong
      exact ⟨n, hn, hlong, rfl⟩
  | obj _ _ ih =>
      obtain ⟨inner, hinner, hdigits, hbelow⟩ := inside?_of_le hdepth
      rw [limitFault?, hinner] at hfault
      obtain ⟨f, hf, hfault⟩ := exists_of_fieldsFault? hfault
      obtain ⟨n, hn, hlong, rfl⟩ := ih f hf hbelow hfault
      rw [JsonLimits.IsLong, hdigits] at hlong
      exact ⟨n, hn, hlong, rfl⟩

/-- A value that keeps within the depth of the writer and has no halves is written as a text, if
no integer in it has too many digits. -/
theorem Whole.dump {v : Json} {depth : Nat} (hv : v.Whole P depth)
    (hdepth : ∀ most, storedLimits.depth = some most → depth ≤ most) (indent : Option Text) :
    (∃ text : Text, v.dump indent = .ok text.points) ∨
      v.dump indent = .error .longInteger ∧ ∃ n, P n ∧ storedLimits.IsLong n := by
  obtain ⟨text, htext⟩ := hv.isText_writeAt indent 0
  rw [Json.dump, writeWithin]
  cases hfault : v.limitFault? storedLimits with
  | none => exact .inl ⟨text, congrArg Except.ok htext⟩
  | some fault =>
      obtain ⟨n, hn, hlong, rfl⟩ := hv.exists_isLong hdepth hfault
      exact .inr ⟨rfl, n, hn, hlong⟩

/-- What is written within the limits is what is written without them. -/
theorem write_of_dump {v : Json} {indent : Option Text} {s : Points}
    (hdump : v.dump indent = .ok s) : v.write indent = s := by
  rw [Json.dump, writeWithin] at hdump
  cases hfault : v.limitFault? storedLimits with
  | none =>
      rw [hfault] at hdump
      exact Except.ok.inj hdump
  | some fault =>
      rw [hfault] at hdump
      cases fault <;> cases hdump

/-! ## Graphs of outlines -/

theorem Whole.ofText? {depth : Nat} (t : Option Text) : (Json.ofText? t).Whole P depth := by
  cases t with
  | none => exact .null
  | some t => exact .text t

theorem Whole.ofFields {depth : Nat} {fields : List (String × Json)}
    (hfields : ∀ f ∈ fields, f.2.Whole P depth) :
    (Json.ofFields fields).Whole P (depth + 1) := by
  refine .obj ?_ ?_
  · exact List.forall_mem_map.mpr fun f _ => .ofString f.1
  · exact List.forall_mem_map.mpr hfields

theorem IsDetail.whole {v : Json} (hv : v.IsDetail) : v.Whole P 1 := by
  cases hv with
  | text t => exact .text t
  | texts ts => exact .arr (List.forall_mem_map.mpr fun t _ => .text t)
  | bool b => exact .bool b

end Json

open Json Draft

variable {P : Int → Prop}

/-- The members have texts for keys, and whole values that lie at most so deep. -/
def WholeFields (P : Int → Prop) (depth : Nat) (fs : Fields) : Prop :=
  ∀ f ∈ fs, f.1.IsText ∧ f.2.Whole P depth

theorem WholeFields.whole {depth : Nat} {fs : Fields} (hfs : WholeFields P depth fs) :
    (obj fs).Whole P (depth + 1) :=
  .obj (fun f hf => (hfs f hf).1) fun f hf => (hfs f hf).2

theorem WholeFields.of_whole {depth : Nat} {fs : Fields} (hfs : (obj fs).Whole P (depth + 1)) :
    WholeFields P depth fs := by
  cases hfs with
  | obj hkeys hvalues => exact fun f hf => ⟨hkeys f hf, hvalues f hf⟩

theorem WholeFields.putAllNew {depth : Nat} {fs gs : Fields} (hfs : WholeFields P depth fs)
    (hgs : WholeFields P depth gs) : WholeFields P depth (Assoc.putAllNew fs gs) := fun f hf =>
  (Assoc.mem_putAllNew hf).elim (hfs f) (hgs f)

theorem WholeFields.withAliases {fs : Fields} (hfs : WholeFields P 1 fs)
    (aliases : List (Text × Text)) : WholeFields P 1 (withAliases fs aliases) := by
  have hnoted : WholeFields P 0 (notedAliases fs) := by
    rw [notedAliases]
    split
    · next hget => exact .of_whole (hfs _ (Assoc.mem_of_get? hget)).2
    · exact List.forall_mem_nil _
  have hbound : WholeFields P 0 (aliases.map fun a => (a.1.points, .text a.2)) :=
    List.forall_mem_map.mpr fun a _ => ⟨.points a.1, .text a.2⟩
  intro f hf
  rcases Assoc.mem_put hf with hf | rfl
  · exact hfs f hf
  · exact ⟨.ofString "importAliases", (hnoted.putAllNew hbound).whole⟩

theorem wholeFields_mentioned {os : List Outline} {n : Node} (hn : n ∈ mentionedNodes os) :
    WholeFields P 1 n.metadata := by
  obtain ⟨fields, hmetadata, -, hdetails⟩ := exists_details_of_mentioned hn
  rw [hmetadata]
  intro f hf
  obtain ⟨⟨k, v⟩, hmem, hv⟩ := List.mem_filterMap.mp hf
  obtain ⟨v, rfl, rfl⟩ := Option.map_eq_some_iff.mp hv
  exact ⟨.ofString k, (hdetails _ hmem v rfl).whole⟩

theorem Node.whole_record {n : Node} (hn : WholeFields P 1 n.metadata)
    (hline : ∀ line, n.line = some line → P line) : n.record.toJson.Whole P 3 := by
  have hline : n.record.line.Whole P 2 := by
    rw [Node.record]
    cases heq : n.line with
    | none => exact .null
    | some line => exact .int (hline line heq)
  have hmetadata : (obj n.record.metadata.fields).Whole P 2 := by
    rw [Node.record, Metadata.fields_ofFields]
    exact hn.whole
  refine .ofFields ?_
  simp only [List.forall_mem_cons]
  exact ⟨.text n.id, .text n.label, .text n.kind.word, .ofText? n.filePath, hline, hmetadata,
    List.forall_mem_nil _⟩

theorem Edge.whole_record {e : Edge} (hweight : P e.weight) : e.record.toJson.Whole P 3 := by
  have hmetadata : (obj e.record.metadata.fields).Whole P 2 :=
    .obj (List.forall_mem_singleton.mpr (.ofString "weight"))
      (List.forall_mem_singleton.mpr (.int hweight))
  refine .ofFields ?_
  simp only [List.forall_mem_cons]
  exact ⟨.text e.id, .text e.link.source, .text e.link.target, .text e.link.relation.word,
    hmetadata, List.forall_mem_nil _⟩

/-- The integer is the line of a node or the weight of an edge. -/
def Graph.HasNumber (g : Graph) (n : Int) : Prop :=
  (∃ m ∈ g.nodes, ∃ line, m.line = some line ∧ n = line) ∨ ∃ e ∈ g.edges, n = e.weight

theorem whole_build (os : List Outline) :
    (Graph.build os).record.toJson.Whole (Graph.build os).HasNumber 5 := by
  have hnodes : ∀ n ∈ (Graph.build os).nodes, WholeFields (Graph.build os).HasNumber 1
      n.metadata :=
    forall_metadata_build (fun _ _ => WholeFields.putAllNew)
      (fun _ aliases hfs => hfs.withAliases aliases) fun n hn => wholeFields_mentioned hn
  refine .ofFields ?_
  simp only [List.forall_mem_cons]
  refine ⟨.arr ?_, .arr ?_, List.forall_mem_nil _⟩
  · refine List.forall_mem_map.mpr (List.forall_mem_map.mpr fun n hn => ?_)
    exact Node.whole_record (hnodes n hn) fun line hline => .inl ⟨n, hn, line, hline, rfl⟩
  · refine List.forall_mem_map.mpr (List.forall_mem_map.mpr fun e he => ?_)
    exact Edge.whole_record (.inr ⟨e, he, rfl⟩)

namespace GraphRecord

/-- What is written within the limits is the written form of the graph. -/
theorem write_of_dump {g : GraphRecord} {indent : Option Text} {s : Points}
    (hdump : g.dump indent = .ok s) : g.write indent = .ok s := by
  rw [dump] at hdump
  rw [write]
  cases hordered : g.ordered with
  | error fault =>
      rw [hordered] at hdump
      cases hdump
  | ok ordered =>
      rw [hordered] at hdump
      exact congrArg Except.ok (Json.write_of_dump hdump)

theorem storedText_eq_ok_iff {g : GraphRecord} {text : Text} :
    g.storedText = .ok text ↔ g.dump storedIndent = .ok text.points := by
  rw [storedText]
  cases g.dump storedIndent with
  | error fault => exact iff_of_false nofun nofun
  | ok s =>
      have hencode : s.encode.mapError StoreFault.encode = .ok text ↔ s.encode = .ok text := by
        cases s.encode with
        | error fault => exact iff_of_false nofun nofun
        | ok t => rw [Except.mapError, Except.ok.injEq, Except.ok.injEq]
      rw [Except.ok.injEq, ← Points.encode_eq_ok_iff]
      exact hencode

end GraphRecord

/-- A graph of outlines is stored as a text, if no line and no weight in it has too many
digits. -/
theorem storedText_build {os : List Outline} {fault : StoreFault}
    (hfault : (Graph.build os).record.storedText = .error fault) :
    fault = .longInteger ∧ ∃ n, (Graph.build os).HasNumber n ∧ storedLimits.IsLong n := by
  have hdump : (Graph.build os).record.dump storedIndent =
      (Graph.build os).record.toJson.dump storedIndent := by
    rw [GraphRecord.dump, GraphRecord.ordered_of_inOrder (inOrder_build os)]
  have hdepth : ∀ most, storedLimits.depth = some most → 5 ≤ most := by
    rintro _ ⟨rfl⟩
    decide
  rcases (whole_build os).dump hdepth storedIndent with ⟨text, htext⟩ | ⟨hlong, hnumber⟩
  · have hstored := GraphRecord.storedText_eq_ok_iff.mpr (hdump.trans htext)
    cases hfault.symm.trans hstored
  · rw [GraphRecord.storedText, hdump, hlong] at hfault
    exact ⟨(Except.error.inj hfault).symm, hnumber⟩

/-! ## Graphs of sources -/

namespace SourceRecord

theorem eq_ofOutline {options : ReadingOptions} {f : SourceRecord} {o : OutlinedSource}
    (hf : f.file? ≠ none) (ho : f.outline options = .ok o) : o = .ofOutline o.outline := by
  obtain ⟨file, hfile⟩ := Option.ne_none_iff_exists'.mp hf
  rw [outline, hfile] at ho
  dsimp only at ho
  cases houtline : file.outline options with
  | error fault =>
      rw [houtline] at ho
      cases ho
  | ok read =>
      rw [houtline] at ho
      rw [← Except.ok.inj ho]
      rfl

/-- Sources whose values are texts are outlined as files. -/
theorem exists_outlines {options : ReadingOptions} {files : List SourceRecord}
    {os : List OutlinedSource} (hfiles : ∀ f ∈ files, f.file? ≠ none)
    (hos : files.mapM (outline options) = .ok os) :
    ∃ outlines : List Outline, os = outlines.map .ofOutline := by
  induction files generalizing os with
  | nil => exact ⟨[], (Except.ok.inj hos).symm⟩
  | cons f files ih =>
      obtain ⟨hf, hlater⟩ := List.forall_mem_cons.mp hfiles
      rw [List.mapM_cons] at hos
      cases ho : f.outline options with
      | error fault =>
          rw [ho] at hos
          cases hos
      | ok o =>
          cases hrest : files.mapM (outline options) with
          | error fault =>
              rw [ho, hrest] at hos
              cases hos
          | ok rest =>
              rw [ho, hrest] at hos
              obtain ⟨outlines, rfl⟩ := ih hlater hrest
              refine ⟨o.outline :: outlines, (Except.ok.inj hos).symm.trans ?_⟩
              rw [List.map_cons, ← eq_ofOutline hf ho]

/-- The graph of sources whose values are texts is stored as a text, if no integer in it has too
many digits. -/
theorem storedText_graph {options : AnalysisOptions} {files : List SourceRecord}
    {os : List OutlinedSource} {g : GraphRecord} {fault : StoreFault}
    (hfiles : ∀ f ∈ files, f.file? ≠ none) (hos : outlineAll options files [] = .ok os)
    (hgraph : OutlinedSource.graph os = .ok g) (hfault : g.storedText = .error fault) :
    fault = .longInteger := by
  have hread : files.mapM (outline options.reading) = .ok os := by
    have hgather : gather files [] = files := List.append_nil files
    rw [outlineAll, prepare, hgather] at hos
    split at hos
    · cases hos
    · cases hlimits : checkLimits options files with
      | error fault =>
          rw [hlimits] at hos
          cases hos
      | ok =>
          rw [hlimits] at hos
          exact hos
  obtain ⟨outlines, rfl⟩ := exists_outlines hfiles hread
  rw [OutlinedSource.graph_ofOutline] at hgraph
  rw [← Except.ok.inj hgraph] at hfault
  exact (storedText_build hfault).1

end SourceRecord

/-! ## Storing -/

namespace FileTree

/-- The directories above a path can be made, and then a file can be written by it. -/
def Admits (t : FileTree) (p : Path) : Prop :=
  ∃ above place, t.makeDirectories p.parent = (above, none) ∧ above.writable p = .ok place

/-- In the other tree the path leads to a file with the bytes, and all other files and links are
as they were. -/
def Stores (t t' : FileTree) (p : Path) (bytes : List UInt8) : Prop :=
  ∃ place, t'.locate p .look = .ok (.taken place (.file bytes)) ∧ t.Keeps t' [place]

theorem write_of_writable {t : FileTree} {p : Path} {place : FilePlace}
    (hplace : t.writable p = .ok place) (bytes : List UInt8) :
    t.write p bytes = .ok (t.put place.directory place.name (.file bytes)) := by
  rw [write, hplace]
  rfl

end FileTree

namespace GraphRecord

variable {g : GraphRecord} {t : FileTree} {p : Path}

/-- By a path that does not admit a file no graph is stored, and no file is touched. -/
theorem save_of_not_admits (hp : ¬ t.Admits p) :
    ∃ t' fault, g.save t p = (t', some fault) ∧ t.Keeps t' [] := by
  have hkeeps := t.makeDirectories_keeps p.parent
  unfold save saveText
  split
  · next above fault habove =>
    rw [habove] at hkeeps
    exact ⟨above, .path fault, rfl, hkeeps⟩
  · next above habove =>
    rw [habove] at hkeeps
    cases hplace : above.writable p with
    | error fault =>
        rw [FileTree.write, hplace]
        exact ⟨above, .path fault, rfl, hkeeps⟩
    | ok place => exact absurd ⟨above, place, habove, hplace⟩ hp

/-- By a path that admits a file a graph is stored as its text. Without a text the file is
empty. -/
theorem save_of_admits (hcwd : ∃ d, t.top.descend? t.cwd = some d) (hp : t.Admits p) :
    (∀ text, g.storedText = .ok text →
      ∃ t', g.save t p = (t', none) ∧ t.Stores t' p text.toBytes) ∧
    ∀ fault, g.storedText = .error fault →
      ∃ t', g.save t p = (t', some fault) ∧ t.Stores t' p [] := by
  obtain ⟨above, place, habove, hplace⟩ := hp
  have hkeeps := t.makeDirectories_keeps p.parent
  rw [habove] at hkeeps
  have hcwd' := hkeeps.exists_cwd hcwd
  -- in either case the file is emptied, and then the path leads to it
  have hemptied := FileTree.write_of_writable hplace []
  have hkept := FileTree.Keeps.of_writable hplace []
  refine ⟨fun text htext => ?_, fun fault hfault => ?_⟩
  · have hplace' :=
      FileTree.writable_of_locate (FileTree.locate_put hplace hcwd' [] (by decide))
    have hstored := FileTree.write_of_writable hplace' text.toBytes
    refine ⟨_, ?_, place.directory ++ [place.name],
      FileTree.locate_put hplace' (hkept.exists_cwd hcwd') text.toBytes (by decide), ?_⟩
    · rw [save, htext, saveText, habove]
      simp only [hemptied, hstored]
    · exact (hkeeps.mono.trans hkept).trans (FileTree.Keeps.of_writable hplace' text.toBytes)
  · refine ⟨_, ?_, place.directory ++ [place.name],
      FileTree.locate_put hplace hcwd' [] (by decide), hkeeps.mono.trans hkept⟩
    rw [save, hfault, saveText, habove]
    simp only [hemptied]

end GraphRecord

end SymbolGraph
