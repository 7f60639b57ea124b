import SymbolGraph.Proofs.CommandLine.Run
import SymbolGraph.Proofs.Record.Written
set_option autoImplicit false

/-!
# What a command line comes to

A run that fails before a result is delivered has touched no file. Delivering a result changes
the tree only where a graph is stored. By a path that admits no file nothing is stored, and no
file is left behind, though perhaps directories. By a path that does, a graph without a text is
not stored either, but leaves an empty file; a source file whose name is no UTF-8 has such a
graph (`half_spoils`). It follows that a program ends with what was asked for, with nothing, or
with an empty file in the place of the graph (`command_concludes`).
-/

namespace SymbolGraph

namespace Invocation

variable (i : Invocation) (settings : Settings)

/-- How the arguments and the settings have sources analysed. -/
def options : AnalysisOptions :=
  settings.analysisOptions (if i.noDocstrings then some false else none)

/-- Prints or stores a graph, as the arguments ask. -/
def deliverGraph (g : GraphRecord) : Run Printed := do
  match i.output with
  | none | some [] =>
    discard (Run.ofExcept .setting (pathString settings.outputPath))
    return { stdout := ← Run.print (g.dump printedIndent), stderr := i.statsText g }
  | some output =>
    Run.save g (Path.ofPoints output)
    return { stderr := i.statsText g }

/-- Prints or stores what the arguments ask for. -/
def deliver (os : List OutlinedSource) : Run Printed := do
  if i.parsed then
    return { stdout := ← Run.print ((OutlinedSource.allJson os).dump printedIndent) }
  i.deliverGraph settings (← Run.graph os)

theorem work_eq (target : Path) :
    i.work settings target =
      Run.gather settings target >>= Run.outline (i.options settings) >>= i.deliver settings :=
  (bind_assoc _ _ _).symm

/-! ## Delivering -/

section

variable {i settings} {t : FileTree}

theorem yields_deliver_parsed {os : List OutlinedSource} (hparsed : i.parsed = true)
    {text : Text} (htext : (OutlinedSource.allJson os).dump printedIndent = .ok text.points) :
    Run.Yields t (i.deliver settings os) (.ok { stdout := text ++ ['\n'] }) := by
  rw [deliver, if_pos hparsed, htext]
  exact (Run.yields_print text).bind (Run.yields_pure _)

theorem exists_deliverGraph {os : List OutlinedSource} (hparsed : i.parsed = false)
    {g : GraphRecord} (hgraph : OutlinedSource.graph os = .ok g) {s : Session} (ht : s.tree = t)
    (hs : s.logFile = none) :
    ∃ s' : Session, s'.tree = t ∧ s'.logFile = none ∧
      i.deliver settings os s = i.deliverGraph settings g s' := by
  have hbuild := Run.yields_graph (t := t) os
  rw [hgraph] at hbuild
  obtain ⟨log, hlog⟩ := hbuild s ht hs
  refine ⟨{ s with log }, ht, hs, ?_⟩
  rw [deliver, if_neg (by rw [hparsed]; exact Bool.false_ne_true)]
  exact Run.bind_of_ok hlog

theorem deliverGraph_printed {g : GraphRecord} (houtput : i.output.getD [] = []) :
    i.deliverGraph settings g = (do
      discard (Run.ofExcept .setting (pathString settings.outputPath))
      return { stdout := ← Run.print (g.dump printedIndent), stderr := i.statsText g }) := by
  rw [deliverGraph]
  cases hgiven : i.output with
  | none => rfl
  | some output =>
      rw [hgiven] at houtput
      obtain rfl : output = [] := houtput
      rfl

/-- Without a path to store it by, the text of a graph is printed, if the settings have a
path. -/
theorem yields_deliverGraph {g : GraphRecord} (houtput : i.output.getD [] = []) {path : Points}
    (hpath : pathString settings.outputPath = .ok path) {text : Text}
    (htext : g.dump printedIndent = .ok text.points) :
    Run.Yields t (i.deliverGraph settings g)
      (.ok { stdout := text ++ ['\n'], stderr := i.statsText g }) := by
  rw [deliverGraph_printed houtput, hpath, htext]
  exact (Run.yields_pure path).discard.bind ((Run.yields_print text).bind (Run.yields_pure _))

theorem exists_yields_deliverGraph_error {g : GraphRecord} (houtput : i.output.getD [] = [])
    (hcannot : ∀ path, pathString settings.outputPath = .ok path →
      ∀ text : Text, g.dump printedIndent ≠ .ok text.points) :
    ∃ fault, Run.Yields t (i.deliverGraph settings g) (.error fault) := by
  rw [deliverGraph_printed houtput]
  cases hpath : pathString settings.outputPath with
  | error fault => exact ⟨_, (Run.yields_throw (.setting fault)).discard_error.bind_error⟩
  | ok path =>
      obtain ⟨fault, hprint⟩ := Run.exists_yields_print_error (t := t) (hcannot path hpath)
      exact ⟨fault, (Run.yields_pure path).discard.bind hprint.bind_error⟩

theorem deliverGraph_stored {g : GraphRecord} (houtput : i.output.getD [] ≠ []) :
    i.deliverGraph settings g = (do
      Run.save g (Path.ofPoints (i.output.getD []))
      return { stderr := i.statsText g }) := by
  rw [deliverGraph]
  cases hgiven : i.output with
  | none => exact absurd (by rw [hgiven]; rfl) houtput
  | some output =>
      cases output with
      | nil => exact absurd (by rw [hgiven]; rfl) houtput
      | cons c output => rfl

end

/-! ## Outcomes -/

end Invocation

/-- The program ended with the code 1 and printed nothing. -/
structure Outcome.Fails (o : Outcome) : Prop where
  code : o.code = 1
  stdout : o.printed.stdout = []

namespace Invocation

section

variable {i : Invocation} {settings : Settings} {t : FileTree} {target : Path}

theorem run_of_ok {s s' : Session} {printed : Printed}
    (hwork : i.work settings target s = (.ok printed, s')) :
    i.run settings s target = { printed, log := s'.log, tree := s'.tree } := by
  rw [run, hwork]

theorem run_of_error {s s' : Session} {fault : RunFault}
    (hwork : i.work settings target s = (.error fault, s')) (hs : s'.logFile = none) :
    (i.run settings s target).Fails ∧ (i.run settings s target).tree = s'.tree := by
  have htree : ∀ r, (s'.note r).tree = s'.tree := by
    intro r
    rw [Session.note]
    split
    · rw [hs]
    · rfl
  rw [run, hwork]
  exact ⟨⟨rfl, rfl⟩, htree _⟩

/-- What fails and changes nothing but the log leaves all files as they were. -/
theorem run_of_yields_error {s s' : Session} {r : Run Printed} {fault : RunFault}
    (hr : Run.Yields t r (.error fault)) (hwork : i.work settings target s = r s')
    (ht : s'.tree = t) (hs : s'.logFile = none) :
    (i.run settings s target).Fails ∧ t.Keeps (i.run settings s target).tree [] := by
  obtain ⟨log, hlog⟩ := hr s' ht hs
  obtain ⟨hfails, htree⟩ := run_of_error (hwork.trans hlog) hs
  refine ⟨hfails, ?_⟩
  rw [htree]
  exact ht ▸ .refl t

variable (i settings t)

/-- What the arguments ask for can be printed or stored: outlines or a graph can be printed if
they have a text, for a graph the settings must have a path as well; a graph with a text can be
stored if a file can be written by the path that is given. -/
inductive CanDeliver (os : List OutlinedSource) : Prop
  | parsed {text : Text} : i.parsed = true →
      (OutlinedSource.allJson os).dump printedIndent = .ok text.points → CanDeliver os
  | printed {g : GraphRecord} {path : Points} {text : Text} : i.parsed = false →
      i.output.getD [] = [] → OutlinedSource.graph os = .ok g →
      pathString settings.outputPath = .ok path → g.dump printedIndent = .ok text.points →
      CanDeliver os
  | stored {g : GraphRecord} {text : Text} : i.parsed = false → i.output.getD [] ≠ [] →
      OutlinedSource.graph os = .ok g → t.Admits (Path.ofPoints (i.output.getD [])) →
      g.storedText = .ok text → CanDeliver os

/-- The graph is to be stored by a path that admits a file, but has no text. -/
inductive LacksText (os : List OutlinedSource) (fault : StoreFault) : Prop
  | intro {g : GraphRecord} : i.parsed = false → i.output.getD [] ≠ [] →
      OutlinedSource.graph os = .ok g → t.Admits (Path.ofPoints (i.output.getD [])) →
      g.storedText = .error fault → LacksText os fault

/-- What is left behind once the outlines of files were printed, or their graph was printed or
stored. -/
inductive Delivered (files : List SourceRecord) (o : Outcome) : Prop
  | parsed {os : List OutlinedSource} {text : Text} : i.parsed = true →
      SourceRecord.outlineAll (i.options settings) files [] = .ok os →
      (OutlinedSource.allJson os).write printedIndent = text.points →
      o.printed.stdout = text ++ ['\n'] → o.tree = t → Delivered files o
  | stored {output : Points} {text : Text} {g : GraphRecord} : i.parsed = false →
      i.output = some output → output ≠ [] →
      SourceRecord.analyze (i.options settings) files [] = .ok g →
      g.write storedIndent = .ok text.points → o.printed.stdout = [] →
      t.Stores o.tree (Path.ofPoints output) text.toBytes → Delivered files o
  | printed {text : Text} {g : GraphRecord} : i.parsed = false → i.output.getD [] = [] →
      SourceRecord.analyze (i.options settings) files [] = .ok g →
      g.write printedIndent = .ok text.points → o.printed.stdout = text ++ ['\n'] → o.tree = t →
      Delivered files o

/-- How a program ends once files are outlined. What can be delivered was. Otherwise the program
failed; it left an empty file if the graph to be stored had no text, and touched no file if
not. -/
inductive Ends (files : List SourceRecord) (os : List OutlinedSource) (o : Outcome) : Prop
  | delivered : i.CanDeliver settings t os → o.code = 0 → i.Delivered settings t files o →
      Ends files os o
  | emptied {fault : StoreFault} : i.LacksText t os fault → o.Fails →
      t.Stores o.tree (Path.ofPoints (i.output.getD [])) [] → Ends files os o
  | failed : ¬ i.CanDeliver settings t os → (∀ fault, ¬ i.LacksText t os fault) → o.Fails →
      t.Keeps o.tree [] → Ends files os o

variable {i settings t} {files : List SourceRecord} {os : List OutlinedSource} {g : GraphRecord}

theorem CanDeliver.exists_graph (hcan : i.CanDeliver settings t os)
    (hparsed : i.parsed = false) :
    ∃ g, OutlinedSource.graph os = .ok g ∧
      (i.output.getD [] = [] ∧ (∃ path, pathString settings.outputPath = .ok path ∧
          ∃ text : Text, g.dump printedIndent = .ok text.points) ∨
        i.output.getD [] ≠ [] ∧ t.Admits (Path.ofPoints (i.output.getD [])) ∧
          ∃ text, g.storedText = .ok text) := by
  cases hcan with
  | parsed htrue => exact absurd (hparsed.symm.trans htrue) Bool.false_ne_true
  | printed _ houtput hgraph hpath htext =>
      exact ⟨_, hgraph, .inl ⟨houtput, _, hpath, _, htext⟩⟩
  | stored _ houtput hgraph hadmits htext =>
      exact ⟨_, hgraph, .inr ⟨houtput, hadmits, _, htext⟩⟩

/-- A graph with a text does not lack one. -/
theorem CanDeliver.not_lacksText (hcan : i.CanDeliver settings t os) (fault : StoreFault) :
    ¬ i.LacksText t os fault := by
  rintro ⟨hparsed, houtput, hgraph, -, hfault⟩
  obtain ⟨g, hgraph', ⟨hnone, -⟩ | ⟨-, -, text, htext⟩⟩ := hcan.exists_graph hparsed
  · exact houtput hnone
  · obtain rfl := Except.ok.inj (hgraph.symm.trans hgraph')
    cases hfault.symm.trans htext

theorem analyze_of_outlines
    (houtlines : SourceRecord.outlineAll (i.options settings) files [] = .ok os) :
    SourceRecord.analyze (i.options settings) files [] = OutlinedSource.graph os := by
  rw [SourceRecord.analyze, houtlines]
  rfl

theorem ends_of_yields_error {s s' : Session} {r : Run Printed} {fault : RunFault}
    (hr : Run.Yields t r (.error fault)) (hwork : i.work settings target s = r s')
    (ht : s'.tree = t) (hs : s'.logFile = none) (hcannot : ¬ i.CanDeliver settings t os)
    (htexts : ∀ fault, ¬ i.LacksText t os fault) :
    i.Ends settings t files os (i.run settings s target) := by
  obtain ⟨hfails, hkeeps⟩ := run_of_yields_error hr hwork ht hs
  exact .failed hcannot htexts hfails hkeeps

variable {s s' : Session}
  (houtlines : SourceRecord.outlineAll (i.options settings) files [] = .ok os)
  (hwork : i.work settings target s = i.deliver settings os s') (ht : s'.tree = t)
  (hs : s'.logFile = none)

include hwork ht hs

theorem ends_of_graph_fault (hparsed : i.parsed = false) {fault : SourceFault}
    (hgraph : OutlinedSource.graph os = .error fault) :
    i.Ends settings t files os (i.run settings s target) := by
  have hbuild := Run.yields_graph (t := t) os
  rw [hgraph] at hbuild
  have hdeliver : Run.Yields t (i.deliver settings os) (.error (.source fault)) := by
    rw [deliver, if_neg (by rw [hparsed]; exact Bool.false_ne_true)]
    exact hbuild.bind_error
  refine ends_of_yields_error hdeliver hwork ht hs (fun hcan => ?_) ?_
  · obtain ⟨g, hok, -⟩ := hcan.exists_graph hparsed
    cases hgraph.symm.trans hok
  · rintro _ ⟨-, -, hok, -, -⟩
    cases hgraph.symm.trans hok

include houtlines

theorem ends_parsed (hparsed : i.parsed = true) :
    i.Ends settings t files os (i.run settings s target) := by
  by_cases htext : ∃ text : Text, (OutlinedSource.allJson os).dump printedIndent =
    .ok text.points
  · obtain ⟨text, htext⟩ := htext
    have hyields : Run.Yields t (i.deliver settings os) _ := yields_deliver_parsed hparsed htext
    obtain ⟨log, hdeliver⟩ := hyields s' ht hs
    rw [run_of_ok (hwork.trans hdeliver)]
    exact .delivered (.parsed hparsed htext) rfl
      (.parsed hparsed houtlines (Json.write_of_dump htext) rfl ht)
  · obtain ⟨fault, hprint⟩ :=
      Run.exists_yields_print_error (t := t) fun text heq => htext ⟨text, heq⟩
    have hdeliver : Run.Yields t (i.deliver settings os) (.error fault) := by
      rw [deliver, if_pos hparsed]
      exact hprint.bind_error
    refine ends_of_yields_error hdeliver hwork ht hs (fun hcan => ?_) ?_
    · cases hcan with
      | parsed _ hdump => exact htext ⟨_, hdump⟩
      | printed hfalse => exact Bool.false_ne_true (hfalse.symm.trans hparsed)
      | stored hfalse => exact Bool.false_ne_true (hfalse.symm.trans hparsed)
    · rintro _ ⟨hfalse, -, -, -, -⟩
      exact Bool.false_ne_true (hfalse.symm.trans hparsed)

variable (hparsed : i.parsed = false) (hgraph : OutlinedSource.graph os = .ok g)
include hparsed hgraph

theorem ends_printed (houtput : i.output.getD [] = []) :
    i.Ends settings t files os (i.run settings s target) := by
  obtain ⟨s'', ht', hs', hdeliver⟩ := exists_deliverGraph hparsed hgraph ht hs
  have hwork' := hwork.trans hdeliver
  by_cases hcan : ∃ path, pathString settings.outputPath = .ok path ∧
      ∃ text : Text, g.dump printedIndent = .ok text.points
  · obtain ⟨path, hpath, text, htext⟩ := hcan
    obtain ⟨log, hlog⟩ := yields_deliverGraph houtput hpath htext s'' ht' hs'
    rw [run_of_ok (hwork'.trans hlog)]
    exact .delivered (.printed hparsed houtput hgraph hpath htext) rfl
      (.printed hparsed houtput ((analyze_of_outlines houtlines).trans hgraph)
        (GraphRecord.write_of_dump htext) rfl ht')
  · obtain ⟨fault, hfault⟩ := exists_yields_deliverGraph_error houtput
      fun path hpath text htext => hcan ⟨path, hpath, text, htext⟩
    refine ends_of_yields_error hfault hwork' ht' hs' (fun hcan' => ?_) ?_
    · obtain ⟨g', hgraph', ⟨-, htext⟩ | ⟨hne, -⟩⟩ := hcan'.exists_graph hparsed
      · obtain rfl := Except.ok.inj (hgraph.symm.trans hgraph')
        exact hcan htext
      · exact hne houtput
    · rintro _ ⟨-, hne, -, -, -⟩
      exact hne houtput

theorem ends_stored (houtput : i.output.getD [] ≠ [])
    (hcwd : ∃ d, t.top.descend? t.cwd = some d) :
    i.Ends settings t files os (i.run settings s target) := by
  obtain ⟨s'', ht', hs', hdeliver⟩ :=
    exists_deliverGraph hparsed hgraph ht hs
  rw [deliverGraph_stored houtput] at hdeliver
  have hwork' := hwork.trans hdeliver
  -- the path is looked at first, and then the text of the graph
  by_cases hp : t.Admits (Path.ofPoints (i.output.getD []))
  · obtain ⟨hstores, hempties⟩ := GraphRecord.save_of_admits (g := g) hcwd hp
    cases htext : g.storedText with
    | ok text =>
        obtain ⟨t', hsave, hstored⟩ := hstores text htext
        obtain ⟨log, hlog⟩ := Run.save_of_stored hs' (ht' ▸ hsave)
        rw [Run.bind_of_ok hlog] at hwork'
        rw [run_of_ok hwork']
        obtain ⟨output, hgiven⟩ : ∃ output, i.output = some output := by
          cases hgiven : i.output with
          | none => exact absurd (by rw [hgiven]; rfl) houtput
          | some output => exact ⟨output, rfl⟩
        rw [hgiven] at houtput hstored
        exact .delivered (.stored hparsed (hgiven ▸ houtput) hgraph hp htext) rfl
          (.stored hparsed hgiven houtput ((analyze_of_outlines houtlines).trans hgraph)
            (GraphRecord.write_of_dump (GraphRecord.storedText_eq_ok_iff.mp htext)) rfl hstored)
    | error fault =>
        obtain ⟨t', hsave, hstored⟩ := hempties fault htext
        rw [Run.bind_of_error (Run.save_of_fault (ht' ▸ hsave))] at hwork'
        obtain ⟨hfails, htree⟩ := run_of_error hwork' hs'
        exact .emptied ⟨hparsed, houtput, hgraph, hp, htext⟩ hfails (htree ▸ hstored)
  · obtain ⟨t', fault, hsave, hkeeps⟩ := GraphRecord.save_of_not_admits (g := g) hp
    rw [Run.bind_of_error (Run.save_of_fault (ht' ▸ hsave))] at hwork'
    obtain ⟨hfails, htree⟩ := run_of_error hwork' hs'
    refine .failed (fun hcan => ?_) ?_ hfails (htree ▸ hkeeps)
    · obtain ⟨_, -, ⟨hnone, -⟩ | ⟨-, hp', -⟩⟩ := hcan.exists_graph hparsed
      · exact houtput hnone
      · exact hp hp'
    · rintro _ ⟨-, -, -, hp', -⟩
      exact hp hp'

omit hparsed hgraph in
/-- Once files are outlined, the program ends in one of the three ways. -/
theorem ends_of_outlines (hcwd : ∃ d, t.top.descend? t.cwd = some d) :
    i.Ends settings t files os (i.run settings s target) := by
  cases hparsed : i.parsed with
  | true => exact ends_parsed houtlines hwork ht hs hparsed
  | false =>
      cases hgraph : OutlinedSource.graph os with
      | error fault => exact ends_of_graph_fault hwork ht hs hparsed hgraph
      | ok g =>
          by_cases houtput : i.output.getD [] = []
          · exact ends_printed houtlines hwork ht hs hparsed hgraph houtput
          · exact ends_stored houtlines hwork ht hs hparsed hgraph houtput hcwd

end

/-! ## Programs -/

section

variable (i : Invocation) (settings : Settings) (t : FileTree) (target : Path)

/-- The source files of a path can be gathered and outlined. -/
def Outlines (files : List SourceRecord) (os : List OutlinedSource) : Prop :=
  Run.Yields t (Run.gather settings target) (.ok files) ∧
    SourceRecord.outlineAll (i.options settings) files [] = .ok os

/-- The source files of a path can be outlined, and what is asked for can be delivered. -/
def Succeeds : Prop :=
  ∃ files os, i.Outlines settings t target files os ∧ i.CanDeliver settings t os

/-- The source files of a path can be outlined, and their graph is to be stored and has no
text. -/
def Spoils (fault : StoreFault) : Prop :=
  ∃ files os, i.Outlines settings t target files os ∧ i.LacksText t os fault

variable {i settings t target}

/-- If the sources are files with texts for their names, only an integer with too many digits
keeps their graph from having a text. -/
theorem Spoils.eq_longInteger {fault : StoreFault} (hspoils : i.Spoils settings t target fault)
    {files : List SourceRecord} (hfiles : Run.Yields t (Run.gather settings target) (.ok files))
    (htexts : ∀ f ∈ files, f.file? ≠ none) : fault = .longInteger := by
  obtain ⟨files', os, ⟨hfiles', houtlines⟩, -, -, hgraph, -, hfault⟩ := hspoils
  obtain rfl := Except.ok.inj (hfiles.unique hfiles')
  exact SourceRecord.storedText_graph htexts houtlines hgraph hfault

variable {s : Session}

theorem run_of_outlines_fault {fault : RunFault}
    (hfault : Run.Yields t (Run.gather settings target >>= Run.outline (i.options settings))
      (.error fault))
    (ht : s.tree = t) (hs : s.logFile = none) :
    (i.run settings s target).Fails ∧ t.Keeps (i.run settings s target).tree [] :=
  run_of_yields_error hfault.bind_error (congrFun (i.work_eq settings target) s) ht hs

variable (hcwd : ∃ d, t.top.descend? t.cwd = some d) (ht : s.tree = t) (hs : s.logFile = none)
include hcwd ht hs

theorem ends {files : List SourceRecord} {os : List OutlinedSource}
    (hos : i.Outlines settings t target files os) :
    i.Ends settings t files os (i.run settings s target) := by
  obtain ⟨hfiles, houtlines⟩ := hos
  have houtline := Run.yields_outline (t := t) (i.options settings) files
  rw [houtlines] at houtline
  obtain ⟨log, hlog⟩ := hfiles.bind houtline s ht hs
  have hwork : i.work settings target s = i.deliver settings os { s with log } := by
    rw [work_eq, Run.bind_of_ok hlog]
  exact ends_of_outlines houtlines hwork ht hs hcwd

theorem run_of_succeeds (hsucceeds : i.Succeeds settings t target) :
    (i.run settings s target).code = 0 ∧
      ∃ files, Run.Yields t (Run.gather settings target) (.ok files) ∧
        i.Delivered settings t files (i.run settings s target) := by
  obtain ⟨files, os, hos, hcan⟩ := hsucceeds
  cases ends hcwd ht hs hos with
  | delivered _ hcode hdelivered => exact ⟨hcode, files, hos.1, hdelivered⟩
  | emptied hlacks => exact absurd hlacks (hcan.not_lacksText _)
  | failed hcannot => exact absurd hcan hcannot

/-- A graph that is to be stored and has no text leaves an empty file. -/
theorem run_of_spoils {fault : StoreFault} (hspoils : i.Spoils settings t target fault) :
    (i.run settings s target).Fails ∧
      t.Stores (i.run settings s target).tree (Path.ofPoints (i.output.getD [])) [] := by
  obtain ⟨files, os, hos, hlacks⟩ := hspoils
  cases ends hcwd ht hs hos with
  | delivered hcan => exact absurd hlacks (hcan.not_lacksText _)
  | emptied _ hfails hstores => exact ⟨hfails, hstores⟩
  | failed _ hnot => exact absurd hlacks (hnot _)

/-- Wherever else a run fails, in gathering, outlining or delivering, no file is touched. -/
theorem run_of_neither (hnot : ¬ i.Succeeds settings t target)
    (hkeeps : ∀ fault, ¬ i.Spoils settings t target fault) :
    (i.run settings s target).Fails ∧ t.Keeps (i.run settings s target).tree [] := by
  obtain ⟨v, hv⟩ := Run.quiet_gather (t := t) settings target
  cases v with
  | error fault => exact run_of_outlines_fault hv.bind_error ht hs
  | ok files =>
      have houtline := Run.yields_outline (t := t) (i.options settings) files
      cases houtlines : SourceRecord.outlineAll (i.options settings) files [] with
      | error fault =>
          rw [houtlines] at houtline
          exact run_of_outlines_fault (hv.bind houtline) ht hs
      | ok os =>
          have hos : i.Outlines settings t target files os := ⟨hv, houtlines⟩
          cases ends hcwd ht hs hos with
          | delivered hcan => exact absurd ⟨files, os, hos, hcan⟩ hnot
          | emptied hlacks => exact absurd ⟨files, os, hos, hlacks⟩ (hkeeps _)
          | failed _ _ hfails hkept => exact ⟨hfails, hkept⟩

theorem fails_of_not_succeeds (hnot : ¬ i.Succeeds settings t target) :
    (i.run settings s target).Fails := by
  by_cases hspoils : ∃ fault, i.Spoils settings t target fault
  · obtain ⟨fault, hspoils⟩ := hspoils
    exact (run_of_spoils hcwd ht hs hspoils).1
  · exact (run_of_neither hcwd ht hs hnot (not_exists.mp hspoils)).1

theorem code_eq_zero_iff :
    (i.run settings s target).code = 0 ↔ i.Succeeds settings t target := by
  refine ⟨fun hzero => ?_, fun hsucceeds => (run_of_succeeds hcwd ht hs hsucceeds).1⟩
  by_contra hnot
  exact Nat.zero_ne_one (hzero.symm.trans (fails_of_not_succeeds hcwd ht hs hnot).code)

theorem not_succeeds_of_code (hone : (i.run settings s target).code = 1) :
    ¬ i.Succeeds settings t target := fun hsucceeds =>
  Nat.zero_ne_one (((code_eq_zero_iff hcwd ht hs).mpr hsucceeds).symm.trans hone)

end

end Invocation

theorem runCommand_eq {settings : Settings} {time : TimeStamp} {t : FileTree}
    {arguments : List Points} {i : Invocation} {target : Points} {least : Level}
    (hread : Invocation.read arguments = .ok (i, target))
    (hlevel : i.level settings = .ok least) (hlog : i.logName settings = .ok none) :
    runCommand settings time t arguments =
      .ok { outcome := i.run settings { tree := t, time, least } (Path.ofPoints target) } := by
  rw [runCommand, hread]
  simp only [Invocation.start, hlevel, hlog]
  rfl

/-- A working directory with one source file. -/
def treeWith (name : Points) (bytes : List UInt8) : FileTree :=
  { top := [(.ofString "w", .dir [(name, .file bytes)])], cwd := [.ofString "w"] }

/-- A working directory with a file that has one variable. -/
def sourceTree : FileTree := treeWith (.ofString "a.py") [120, 61, 49]

/-- What is asked for when the graph of a source file is to be stored. -/
def storing (name : Points) (output : String) : List Points :=
  [name, .ofString "-o", .ofString output]

/-- The outline of a file with one variable. -/
def variableOutline : Outline :=
  { filePath := some "a.py".toList, moduleName := "a".toList, classes := [], functions := []
    imports := []
    globals := [{ name := "x".toList, line := 1, snippet := some "1".toList }] }

theorem exists_storedText_variableOutline :
    ∃ text, (Graph.build [variableOutline]).record.storedText = .ok text := by
  cases hstored : (Graph.build [variableOutline]).record.storedText with
  | ok text => exact ⟨text, rfl⟩
  | error fault =>
      obtain ⟨-, n, hnumber, hlong⟩ := storedText_build hstored
      have hlines : ∀ m ∈ (Draft.build [variableOutline]).nodes, ∀ line ∈ m.line,
          ¬ storedLimits.IsLong line := by decide +kernel
      have hweights : ∀ w ∈ (Draft.build [variableOutline]).weights,
          ¬ storedLimits.IsLong w.2 := by decide +kernel
      rcases hnumber with ⟨m, hm, line, hline, rfl⟩ | ⟨e, he, rfl⟩
      · exact absurd hlong (hlines m (List.mem_mergeSort.mp hm) _ hline)
      · obtain ⟨w, hw, rfl⟩ := List.mem_map.mp (List.mem_mergeSort.mp he)
        exact absurd hlong (hweights w hw)

/-- The name `a.py` with the byte `0xFF` behind its first letter. -/
def halfName : Points := [.char 'a', .half 0x4FF] ++ Points.ofString ".py"

/-- A working directory with an empty file by that name. -/
def halfTree : FileTree := treeWith halfName []

/-- The outline of the file. -/
def halfOutline : OutlinedSource :=
  { outline := { filePath := some [], moduleName := [], classes := [], functions := []
                 imports := [], globals := [] }
    moduleName := [.char 'a', .half 0x4FF]
    filePath := .str halfName }

/-- The graph of the file. -/
def halfGraph : GraphRecord :=
  (Graph.build
    [halfOutline.outline.spelledWith halfOutline.moduleName halfName]).record.unspelled

theorem exists_storedText_halfGraph_error : ∃ fault, halfGraph.storedText = .error fault := by
  have hnot : halfGraph.storedText.isOk = false := by decide +kernel
  cases hstored : halfGraph.storedText with
  | error fault => exact ⟨fault, rfl⟩
  | ok text =>
      rw [hstored] at hnot
      cases hnot

theorem exists_spoils_halfTree :
    ∃ fault, Invocation.Spoils
      { path := some halfName, output := some (.ofString "out.json") } {} halfTree
      (Path.ofPoints halfName) fault := by
  have hload : halfTree.load (.ofTop [.ofString "w"]) (.ofTop [.ofString "w", halfName]) =
      .ok ⟨.str halfName, .text (Text.normalizeNewlines (Utf8.decode [])), .str halfName⟩ := rfl
  have hcontent : Text.normalizeNewlines (Utf8.decode []) = [] := by
    simp [Utf8.decode, Text.normalizeNewlines]
  rw [hcontent] at hload
  have hgather : Run.Yields halfTree (Run.gather {} (Path.ofPoints halfName)) (.ok [_]) :=
    Run.yields_gather_file rfl rfl rfl rfl hload
  have hgraph : OutlinedSource.graph [halfOutline] = .ok halfGraph := by decide +kernel
  obtain ⟨fault, hfault⟩ := exists_storedText_halfGraph_error
  exact ⟨fault, _, [halfOutline], ⟨hgather, by decide +kernel⟩,
    ⟨rfl, List.cons_ne_nil _ _, hgraph, ⟨_, _, rfl, rfl⟩, hfault⟩⟩

theorem FileTree.find?_of_locate {t : FileTree} {p : Path} {place : List Points} {e : Entry}
    (hplace : t.locate p .look = .ok (.taken place e)) : t.find? p = .ok (some e) := by
  rw [find?, find, hplace]
  rfl

end SymbolGraph
