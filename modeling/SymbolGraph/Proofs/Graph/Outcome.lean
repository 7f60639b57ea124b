import SymbolGraph.Proofs.Draft.Closure
import SymbolGraph.Proofs.Outline.Place
import SymbolGraph.Proofs.Outline.Source
set_option autoImplicit false

/-!
# How an analysis ends

An analysis of files that have contents fails for one of two reasons: there is nothing to
analyse, or the limits are exceeded. Otherwise it ends with a graph. That no look-up fails on
the way is shown for an analysis by places (`ByPlace.analyze`), where outlines are read by
places and the draft is built with the segments of names and the module's node looked up: it has
a result for all sources, and the result is the graph.
-/

namespace SymbolGraph

open Text

namespace ByPlace

/-! ## Names in segments -/

/-- The first segment of a dotted path, with the dots that a relative path starts with. -/
def topLevelModule (path : Text) : Option Text := do
  let first ← (split '.' (path.dropWhile (· = '.'))).head?
  return path.takeWhile (· = '.') ++ first

/-- The alias of a name if there is one that is not empty, else the first segment of the
name. -/
def boundFirst (n : ImportedName) : Option Text :=
  match n.boundAs with
  | none | some [] => (split '.' n.name).head?
  | some a => some a

/-- The names that an import binds, each with what it stands for. -/
def bindings (i : ImportDecl) : Option (List (Text × Text)) :=
  match i.style with
  | .plain => i.names.mapM fun n => do return (← boundFirst n, n.name)
  | .fromModule => return i.names.map fun n => (n.bound, qualifiedName i.path n.name)

/-- The modules that an import refers to. -/
def modules (i : ImportDecl) : Option (List Text) :=
  match i.style with
  | .plain => i.names.mapM fun n => topLevelModule n.name
  | .fromModule => do return [← topLevelModule i.path]

/-- The names that a file's imports bind. -/
def aliases (o : Outline) : Option (List (Text × Text)) := do
  let bound ← o.imports.mapM bindings
  return Assoc.putAll [] bound.flatten

/-- The modules that a file imports, each once, in ascending order. -/
def importedModules (o : Outline) : Option (List Text) := do
  let found ← o.imports.mapM modules
  return (found.flatten.eraseDups.filter (· ≠ [])).mergeSort Text.le

/-- What a dotted call names, by the segments around its first and its last dot. -/
def segmentTarget (names : Names) (scope name base method : Text) (within : Option Text)
    (aliases : List (Text × Text)) : Target :=
  if selfNames.contains base then
    match names.methodOf? scope within method with
    | some id => .declared id
    | none => .external .function method
  else
    let found :=
      if Assoc.contains (scope, base) names.classes then
        Assoc.get? (scope, base, method) names.methods
      else none
    match found with
    | some id => .declared id
    | none => .external .function ((Assoc.get? base aliases).getD name)

/-- What a call names. -/
def callTarget (names : Names) (scope name : Text) (within : Option Text)
    (aliases : List (Text × Text)) : Option Target :=
  if '.' ∈ name then do
    let base ← (split '.' name).head?
    let method ← (split '.' name).getLast?
    return segmentTarget names scope name base method within aliases
  else return names.bareTarget scope name within aliases

/-! ## From outlines to a graph -/

/-- Refers to what a call names. -/
def linkCall (o : Outline) (bound : List (Text × Text)) (source : Text) (within : Option Text)
    (d : Draft) (c : CallSite) : Option Draft := do
  let t ← callTarget d.toNames o.moduleName c.name within bound
  return (d.bind t).refer source t.callRelation t.id

/-- Refers to what a function calls. -/
def linkFunction (o : Outline) (bound : List (Text × Text)) (d : Draft) (f : FunctionDecl) :
    Option Draft :=
  f.calls.foldlM (linkCall o bound (nodeId o.moduleName .function f.name f.firstLine) none) d

/-- Refers to what a method calls. -/
def linkMethod (o : Outline) (bound : List (Text × Text)) (c : ClassDecl) (d : Draft)
    (f : FunctionDecl) : Option Draft :=
  let source := nodeId o.moduleName .function (qualifiedName c.name f.name) f.firstLine
  f.calls.foldlM (linkCall o bound source (some c.name)) d

/-- Refers to all that a module's declarations refer to. The module's node must be there when
the names that imports bind are noted on it. -/
def link (d : Draft) (o : Outline) : Option Draft := do
  let bound ← aliases o
  let imported ← importedModules o
  let d := imported.foldl (Draft.linkImport o) d
  let _ ← d.node? (moduleId o.moduleName)
  let d := Draft.noteAliases o d
  let d ← o.functions.foldlM (linkFunction o bound) d
  let d ← o.classes.foldlM (fun d c => c.methods.foldlM (linkMethod o bound c) d) d
  return o.classes.foldl (fun d c => (Draft.baseNames c).foldl (Draft.linkBase o c) d) d

/-- The graph of some outlines. -/
def build (os : List Outline) : Option Graph := do
  let d ← os.foldlM link (os.foldl Draft.declare {})
  return d.graph

/-- The graph of some sources. -/
def analyze (options : OutlineOptions) (sources : List SourceFile) : Option Graph := do
  let os ← sources.mapM fun f => do outline options f.filePath f.name (← f.content)
  build os

/-! ## No look-up fails -/

/-- Where each step has a result, a run of them has. -/
theorem foldlM_eq_some {α β : Type} {step : β → α → Option β} {next : β → α → β} {as : List α}
    (hstep : ∀ b, ∀ a ∈ as, step b a = some (next b a)) (b : β) :
    as.foldlM step b = some (as.foldl next b) := by
  induction as generalizing b with
  | nil => rfl
  | cons a as ih =>
      rw [List.foldlM_cons, hstep b a List.mem_cons_self]
      exact ih (fun b c hc => hstep b c (List.mem_cons_of_mem a hc)) _

theorem topLevelModule_eq (path : Text) :
    topLevelModule path = some (SymbolGraph.topLevelModule path) := by
  rw [topLevelModule, head?_split]
  rfl

theorem boundFirst_eq (n : ImportedName) : boundFirst n = some n.boundFirst := by
  obtain ⟨name, _ | _ | ⟨c, rest⟩⟩ := n
  · exact head?_split '.' name
  · exact head?_split '.' name
  · rfl

theorem bindings_eq (i : ImportDecl) : bindings i = some i.bindings := by
  unfold bindings ImportDecl.bindings
  cases i.style with
  | plain =>
      refine mapM_eq_some fun n _ => ?_
      rw [boundFirst_eq]
      rfl
  | fromModule => rfl

theorem modules_eq (i : ImportDecl) : modules i = some i.modules := by
  unfold modules ImportDecl.modules
  cases i.style with
  | plain => exact mapM_eq_some fun n _ => topLevelModule_eq n.name
  | fromModule =>
      rw [topLevelModule_eq]
      rfl

theorem aliases_eq (o : Outline) : aliases o = some o.aliases := by
  rw [aliases, mapM_eq_some fun i _ => bindings_eq i, Outline.aliases, List.flatMap_def]
  rfl

theorem importedModules_eq (o : Outline) : importedModules o = some o.importedModules := by
  rw [importedModules, mapM_eq_some fun i _ => modules_eq i, Outline.importedModules,
    List.flatMap_def]
  rfl

theorem segmentTarget_eq (names : Names) (scope name : Text) (within : Option Text)
    (bound : List (Text × Text)) :
    segmentTarget names scope name (firstSegment name) (lastSegment name) within bound =
      names.dottedTarget scope name within bound := by
  unfold segmentTarget Names.dottedTarget
  by_cases hself : firstSegment name ∈ selfNames
  · exact (if_pos (List.contains_iff_mem.mpr hself)).trans (if_pos hself).symm
  · exact (if_neg fun h => hself (List.contains_iff_mem.mp h)).trans (if_neg hself).symm

theorem callTarget_eq (names : Names) (scope name : Text) (within : Option Text)
    (bound : List (Text × Text)) :
    callTarget names scope name within bound =
      some (names.callTarget scope name within bound) := by
  unfold callTarget Names.callTarget
  split
  · have htarget := segmentTarget_eq names scope name within bound
    rw [head?_split, getLast?_split, ← htarget]
    rfl
  · rfl

theorem linkCall_eq (o : Outline) (source : Text) (within : Option Text) (d : Draft)
    (c : CallSite) :
    linkCall o o.aliases source within d c = some (Draft.linkCall o source within d c) := by
  rw [linkCall, callTarget_eq]
  rfl

/-- A module is linked by places as it is linked, if its node is there once its imports are. -/
theorem link_eq {d : Draft} {o : Outline}
    (hmodule : ((o.importedModules.foldl (Draft.linkImport o) d).node?
      (moduleId o.moduleName)).isSome = true) : link d o = some (Draft.link d o) := by
  obtain ⟨n, hn⟩ := Option.isSome_iff_exists.mp hmodule
  have hfunctions : ∀ d, o.functions.foldlM (linkFunction o o.aliases) d =
      some (o.functions.foldl (Draft.linkFunction o) d) :=
    foldlM_eq_some fun d f _ => foldlM_eq_some (fun d c _ => linkCall_eq o _ none d c) d
  have hmethods : ∀ d, o.classes.foldlM
      (fun d c => c.methods.foldlM (linkMethod o o.aliases c) d) d =
      some (o.classes.foldl (fun d c => c.methods.foldl (Draft.linkMethod o c) d) d) :=
    foldlM_eq_some fun d c _ => foldlM_eq_some (fun d f _ =>
      foldlM_eq_some (fun d call _ => linkCall_eq o _ (some c.name) d call) d) d
  simp only [link, aliases_eq, importedModules_eq, hn, hfunctions, hmethods,
    Option.bind_eq_bind, Option.bind_some]
  rfl

/-- Modules that were all declared find their nodes, whichever were linked before. -/
theorem foldlM_link {os : List Outline} (rest done : List Outline)
    (hrest : ∀ o ∈ rest, o ∈ os) :
    rest.foldlM link (done.foldl Draft.link (os.foldl Draft.declare {})) =
      some (rest.foldl Draft.link (done.foldl Draft.link (os.foldl Draft.declare {}))) := by
  induction rest generalizing done with
  | nil => rfl
  | cons o rest ih =>
      have hmodule := node?_module_isSome (hrest o List.mem_cons_self) done
      have hlater := ih (done ++ [o]) fun o' ho' => hrest o' (List.mem_cons_of_mem o ho')
      rw [List.foldl_append] at hlater
      rw [List.foldlM_cons, link_eq hmodule]
      exact hlater

theorem build_eq (os : List Outline) : build os = some (Graph.build os) := by
  have hlink := foldlM_link os [] fun _ ho => ho
  rw [List.foldl_nil] at hlink
  rw [build, hlink]
  rfl

/-- Sources that have outlines have them by places, and the graph is that of the outlines. -/
theorem analyze_eq {options : ReadingOptions} {length : Int}
    (hlength : options.snippetLength.integer? = some length) {sources : List SourceFile}
    {os : List Outline} (houtlines : outlines options sources = .ok os) :
    analyze ⟨options.docstrings, length⟩ sources = some (Graph.build os) := by
  have hread : sources.mapM (fun f => do
      outline ⟨options.docstrings, length⟩ f.filePath f.name (← f.content)) = some os := by
    have hfiles := outlines_forall₂ houtlines
    clear houtlines
    induction hfiles with
    | nil => rfl
    | cons houtline _ ih =>
        obtain ⟨-, content, hcontent, -⟩ := exists_read_of_outline houtline
        rw [outline_eq_read hlength hcontent] at houtline
        rw [List.mapM_cons, ih, hcontent, ← Except.ok.inj houtline]
        simp [outline_eq]
  rw [analyze, hread]
  exact build_eq os

end ByPlace

/-! ## Sources and limits -/

/-- There is nothing to analyse if there are no files and all snippets are blank. -/
theorem gatherSources_eq_nil_iff (files : List SourceFile) (snippets : List (Option Text)) :
    gatherSources files snippets = [] ↔
      files = [] ∧ ∀ s ∈ snippets, trim (s.getD []) = [] := by
  simp [gatherSources, pastedFiles]

theorem content_of_mem_gatherSources {files : List SourceFile} {snippets : List (Option Text)}
    (hcontent : ∀ f ∈ files, f.content.isSome) {f : SourceFile}
    (hf : f ∈ gatherSources files snippets) : f.content.isSome := by
  rcases List.mem_append.mp hf with hfile | hpasted
  · exact hcontent f hfile
  · obtain ⟨i, hi, rfl⟩ := List.mem_mapIdx.mp hpasted
    rfl

/-- Sizes are counted in code points of the contents put together. -/
theorem totalSize_eq (files : List SourceFile) :
    totalSize files = (files.flatMap fun f => f.content.getD []).length := by
  have hfold : ∀ n, files.foldl (fun n f => n + f.size) n =
      n + (files.flatMap fun f => f.content.getD []).length := by
    induction files with
    | nil => exact fun n => rfl
    | cons f files ih =>
        intro n
        rw [List.foldl_cons, ih, List.flatMap_cons, List.length_append, SourceFile.size,
          Nat.add_assoc]
  rw [totalSize, hfold, Nat.zero_add]

/-- Sources are refused for being none, too many or too large, in this order. -/
theorem prepareSources_number (maxFiles maxTotal : Int) (reading : ReadingOptions)
    (files : List SourceFile) (snippets : List (Option Text)) :
    prepareSources ⟨.number maxFiles, .number maxTotal, reading⟩ files snippets =
      if gatherSources files snippets = [] then .error .noSources
      else if maxFiles < (gatherSources files snippets).length then
        .error (.tooManyFiles (.number maxFiles))
      else if maxTotal < totalSize (gatherSources files snippets) then
        .error (.tooLarge (.number maxTotal))
      else .ok (gatherSources files snippets) := by
  simp only [prepareSources, checkLimits, exceeds, Limit.exceeded_number]
  split
  · rfl
  · by_cases hfiles : maxFiles < (gatherSources files snippets).length
    · rw [if_pos hfiles, decide_eq_true hfiles]
      rfl
    · rw [if_neg hfiles, decide_eq_false hfiles]
      by_cases htotal : maxTotal < totalSize (gatherSources files snippets)
      · rw [if_pos htotal, decide_eq_true htotal]
        rfl
      · rw [if_neg htotal, decide_eq_false htotal]
        rfl

/-- An analysis of sources that have outlines is refused as the sources are, or gives the graph
of the outlines. -/
theorem analyze_number {reading : ReadingOptions} {files : List SourceFile}
    {snippets : List (Option Text)} {os : List Outline}
    (houtlines : outlines reading (gatherSources files snippets) = .ok os)
    (maxFiles maxTotal : Int) :
    analyze ⟨.number maxFiles, .number maxTotal, reading⟩ files snippets =
      if gatherSources files snippets = [] then .error .noSources
      else if maxFiles < (gatherSources files snippets).length then
        .error (.tooManyFiles (.number maxFiles))
      else if maxTotal < totalSize (gatherSources files snippets) then
        .error (.tooLarge (.number maxTotal))
      else .ok (Graph.build os) := by
  rw [analyze, outlineSources, prepareSources_number]
  split
  · rfl
  split
  · rfl
  split
  · rfl
  · exact congrArg (fun r => r >>= fun os => pure (Graph.build os)) houtlines

/-- Files that have contents, and snippets, are analysed under any integer limits, with
docstrings or without. The analysis fails for want of sources exactly when there are no files
and all snippets are blank; it fails by a limit exactly when there are sources and either their
number or the number of code points of their contents is too great; and otherwise it ends with a
graph, which an analysis by places finds too, so that no look-up fails. -/
theorem analyze_outcome (maxFiles maxTotal length : Int) (docstrings : Bool)
    (files : List SourceFile) (snippets : List (Option Text))
    (hcontent : ∀ f ∈ files, f.content.isSome) :
    let options : AnalysisOptions :=
      ⟨.number maxFiles, .number maxTotal, ⟨docstrings, .number length⟩⟩
    let sources := gatherSources files snippets
    let exceeded := maxFiles < sources.length ∨
      maxTotal < (sources.flatMap fun f => f.content.getD []).length
    (analyze options files snippets = .error .noSources ↔
      files = [] ∧ ∀ s ∈ snippets, trim (s.getD []) = []) ∧
    (analyze options files snippets = .error (.tooManyFiles options.maxFiles) ∨
        analyze options files snippets = .error (.tooLarge options.maxTotalChars) ↔
      sources ≠ [] ∧ exceeded) ∧
    (sources ≠ [] → ¬ exceeded →
      ∃ g, analyze options files snippets = .ok g ∧
        ByPlace.analyze ⟨docstrings, length⟩ sources = some g) := by
  intro options sources exceeded
  obtain ⟨os, hos⟩ : ∃ os, outlines options.reading sources = .ok os :=
    exists_outlines (fun f hf => content_of_mem_gatherSources hcontent hf) rfl
  have hanalyze := analyze_number hos maxFiles maxTotal
  have hexceeded : exceeded ↔ maxFiles < sources.length ∨ maxTotal < totalSize sources := by
    rw [totalSize_eq]
  rw [← gatherSources_eq_nil_iff, hanalyze, hexceeded]
  by_cases hnone : sources = []
  · rw [if_pos hnone]
    refine ⟨iff_of_true rfl hnone, iff_of_false ?_ fun h => h.1 hnone,
      fun hsome => absurd hnone hsome⟩
    rintro (hfault | hfault) <;> cases hfault
  rw [if_neg hnone]
  by_cases hmany : maxFiles < sources.length
  · rw [if_pos hmany]
    exact ⟨iff_of_false nofun hnone, iff_of_true (Or.inl rfl) ⟨hnone, Or.inl hmany⟩,
      fun _ hwithin => absurd (Or.inl hmany) hwithin⟩
  rw [if_neg hmany]
  by_cases hlarge : maxTotal < totalSize sources
  · rw [if_pos hlarge]
    exact ⟨iff_of_false nofun hnone, iff_of_true (Or.inr rfl) ⟨hnone, Or.inr hlarge⟩,
      fun _ hwithin => absurd (Or.inr hlarge) hwithin⟩
  rw [if_neg hlarge]
  refine ⟨iff_of_false nofun hnone, iff_of_false ?_ fun h => h.2.elim hmany hlarge,
    fun _ _ => ?_⟩
  · rintro (hfault | hfault) <;> cases hfault
  · exact ⟨Graph.build os, rfl, ByPlace.analyze_eq rfl hos⟩

/-- A file with a docstring that no quote closes, so that it runs out of its block to the end of
the file; and a file without a name that ends in a class without a block and a decorator. -/
def raggedFiles : List SourceFile :=
  [{ name := "a.py".toList
     content :=
       some "import .\nclass C(B):\n  def m(self):\n    r\"\"\"open\n  self..m()".toList },
    { name := "".toList, content := some "def f(): g()\n\t@d\nclass D:\n@e".toList }]

/-- The ragged files and a snippet are analysed when the limits are met exactly. -/
theorem analyze_outcome_raggedFiles :
    (∀ f ∈ raggedFiles, f.content.isSome) ∧
    ∃ g, analyze ⟨.number 3, .number 93, ⟨true, .number 0⟩⟩ raggedFiles
        [none, some "\nx = 1".toList] = .ok g ∧
      ByPlace.analyze ⟨true, 0⟩ (gatherSources raggedFiles [none, some "\nx = 1".toList]) =
        some g := by
  have hcontent : ∀ f ∈ raggedFiles, f.content.isSome := by decide
  obtain ⟨-, -, hgraph⟩ :=
    analyze_outcome 3 93 0 true raggedFiles [none, some "\nx = 1".toList] hcontent
  exact ⟨hcontent, hgraph (by decide) (by decide)⟩

end SymbolGraph
