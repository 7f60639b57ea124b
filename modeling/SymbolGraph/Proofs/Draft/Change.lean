import SymbolGraph.Draft.Build
set_option autoImplicit false

/-!
# A draft is the replay of its changes

All that is ever done to a draft is one of six changes. The changes by which an outline is
declared are read off the outline alone; those by which it is linked are read off the outline
and the tables of names, which linking leaves as they are. So the draft of some outlines is the
replay of one list of changes (`build_eq_replay`), the second half of which refers to the tables
as they stand after all declarations, and what holds of a draft is derived from that list.
-/

namespace SymbolGraph

/-- One change of a draft. -/
inductive Change
  /-- A node is put in. -/
  | insert (n : Node)
  /-- A top-level function is entered into its table. -/
  | nameFunction (scope name id : Text)
  /-- A class is entered into its table. -/
  | nameClass (scope name id : Text)
  /-- A method is entered into its table. -/
  | nameMethod (scope className name id : Text)
  /-- The names that a module's imports bind are noted on its node. -/
  | note (o : Outline)
  /-- A reference is counted. -/
  | refer (l : Link)

namespace Change

/-- The node that a change puts in. -/
def node? : Change → Option Node
  | insert n => some n
  | _ => none

/-- The reference that a change counts. -/
def link? : Change → Option Link
  | refer l => some l
  | _ => none

/-- The identifier that a change enters into a table. -/
def named? : Change → Option Text
  | nameFunction _ _ id | nameClass _ _ id | nameMethod _ _ _ id => some id
  | _ => none

end Change

namespace Draft

/-- A draft after a change. -/
def apply (d : Draft) : Change → Draft
  | .insert n => d.insert n
  | .nameFunction scope name id =>
    { d with functions := Assoc.put (scope, name) id d.functions }
  | .nameClass scope name id => { d with classes := Assoc.put (scope, name) id d.classes }
  | .nameMethod scope className name id =>
    { d with methods := Assoc.put (scope, className, name) id d.methods }
  | .note o => noteAliases o d
  | .refer l => d.refer l.source l.relation l.target

/-- A draft after changes, one after the other. -/
def replay (d : Draft) (cs : List Change) : Draft := cs.foldl apply d

@[simp] theorem replay_nil (d : Draft) : d.replay [] = d := rfl

@[simp] theorem replay_cons (d : Draft) (c : Change) (cs : List Change) :
    d.replay (c :: cs) = (d.apply c).replay cs := rfl

theorem replay_append (d : Draft) (cs ds : List Change) :
    d.replay (cs ++ ds) = (d.replay cs).replay ds := List.foldl_append

/-- What every change keeps, a replay keeps. -/
theorem replay_induction {P : Draft → Prop} {cs : List Change} {d : Draft} (hstart : P d)
    (hstep : ∀ d, ∀ c ∈ cs, P d → P (d.apply c)) : P (d.replay cs) := by
  induction cs generalizing d with
  | nil => exact hstart
  | cons c cs ih =>
      rw [replay_cons]
      refine ih (hstep d c List.mem_cons_self hstart) ?_
      intro d c' hc'
      exact hstep d c' (List.mem_cons_of_mem c hc')

/-- Steps that each are a replay are together one replay. -/
theorem foldl_eq_replay {α : Type} {step : Draft → α → Draft} {changes : α → List Change}
    (hstep : ∀ d a, step d a = d.replay (changes a)) (as : List α) (d : Draft) :
    as.foldl step d = d.replay (as.flatMap changes) := by
  have hsteps : step = fun d a => d.replay (changes a) := funext fun d => funext (hstep d)
  rw [hsteps, replay, List.foldl_flatMap]
  rfl

/-! ## Declaring -/

/-- The changes that declare a method. -/
def methodChanges (o : Outline) (c : ClassDecl) (f : FunctionDecl) : List Change :=
  let n := f.node o (some c.name)
  [.insert n, .nameMethod o.moduleName c.name f.name n.id,
    .refer ⟨(c.node o).id, .defines, n.id⟩]

/-- The changes that declare a class with its methods. -/
def classChanges (o : Outline) (c : ClassDecl) : List Change :=
  let n := c.node o
  [.insert n, .nameClass o.moduleName c.name n.id,
    .refer ⟨moduleId o.moduleName, .defines, n.id⟩]
    ++ c.methods.flatMap (methodChanges o c)

/-- The changes that declare a top-level function. -/
def functionChanges (o : Outline) (f : FunctionDecl) : List Change :=
  let n := f.node o none
  [.insert n, .nameFunction o.moduleName f.name n.id,
    .refer ⟨moduleId o.moduleName, .defines, n.id⟩]

/-- The changes that declare a variable. -/
def variableChanges (o : Outline) (v : VariableDecl) : List Change :=
  let n := v.node o
  [.insert n, .refer ⟨moduleId o.moduleName, .defines, n.id⟩]

/-- The changes that declare a module with all that it declares. -/
def declareChanges (o : Outline) : List Change :=
  .insert o.node
    :: (o.classes.flatMap (classChanges o) ++ o.functions.flatMap (functionChanges o)
    ++ o.globals.flatMap (variableChanges o))

theorem declareClass_eq_replay (o : Outline) (d : Draft) (c : ClassDecl) :
    declareClass o d c = d.replay (classChanges o c) := by
  have hmethod : ∀ d f, declareMethod o c d f = d.replay (methodChanges o c f) := fun _ _ => rfl
  rw [classChanges, replay_append, ← foldl_eq_replay hmethod]
  rfl

/-- Declaring is a replay. -/
theorem declare_eq_replay (d : Draft) (o : Outline) :
    d.declare o = d.replay (declareChanges o) := by
  have hfunction : ∀ d f, declareFunction o d f = d.replay (functionChanges o f) :=
    fun _ _ => rfl
  have hvariable : ∀ d v, declareVariable o d v = d.replay (variableChanges o v) :=
    fun _ _ => rfl
  rw [declareChanges, replay_cons, replay_append, replay_append,
    ← foldl_eq_replay (declareClass_eq_replay o), ← foldl_eq_replay hfunction,
    ← foldl_eq_replay hvariable]
  rfl

/-! ## Linking -/

/-- The changes that a target needs before it is referred to. -/
def targetChanges : Target → List Change
  | .declared _ => []
  | .external kind name => [.insert (externalNode kind name)]

/-- The changes that link an imported module. -/
def importChanges (o : Outline) (name : Text) : List Change :=
  [.insert (externalNode .module_ name),
    .refer ⟨moduleId o.moduleName, .imports, externalId .module_ name⟩]

/-- What a call names. -/
def callee (names : Names) (o : Outline) (within : Option Text) (c : CallSite) : Target :=
  names.callTarget o.moduleName c.name within o.aliases

/-- The changes that link a call. -/
def callChanges (names : Names) (o : Outline) (source : Text) (within : Option Text)
    (c : CallSite) : List Change :=
  let t := callee names o within c
  targetChanges t ++ [.refer ⟨source, t.callRelation, t.id⟩]

/-- The identifier from which a top-level function's calls are counted. -/
def functionSource (o : Outline) (f : FunctionDecl) : Text :=
  nodeId o.moduleName .function f.name f.firstLine

/-- The identifier from which a method's calls are counted. -/
def methodSource (o : Outline) (c : ClassDecl) (f : FunctionDecl) : Text :=
  nodeId o.moduleName .function (qualifiedName c.name f.name) f.firstLine

/-- The changes that link what a top-level function calls. -/
def functionCallChanges (names : Names) (o : Outline) (f : FunctionDecl) : List Change :=
  f.calls.flatMap (callChanges names o (functionSource o f) none)

/-- The changes that link what a method calls. -/
def methodCallChanges (names : Names) (o : Outline) (c : ClassDecl) (f : FunctionDecl) :
    List Change :=
  f.calls.flatMap (callChanges names o (methodSource o c f) (some c.name))

/-- The changes that link a base class. -/
def baseChanges (names : Names) (o : Outline) (c : ClassDecl) (base : Text) : List Change :=
  let t := names.baseTarget o.moduleName base
  targetChanges t ++ [.refer ⟨t.id, .inherits, (c.node o).id⟩]

/-- The changes that link a module, by the tables of names. -/
def linkChanges (names : Names) (o : Outline) : List Change :=
  o.importedModules.flatMap (importChanges o) ++ [.note o]
    ++ o.functions.flatMap (functionCallChanges names o)
    ++ o.classes.flatMap (fun c => c.methods.flatMap (methodCallChanges names o c))
    ++ o.classes.flatMap (fun c => (baseNames c).flatMap (baseChanges names o c))

/-! ## Linking keeps the tables -/

/-- No change enters an identifier into a table. -/
def KeepsNames (cs : List Change) : Prop := ∀ c ∈ cs, c.named? = none

/-- Changes that enter nothing into the tables leave them as they are. -/
theorem toNames_replay {cs : List Change} (hcs : KeepsNames cs) (d : Draft) :
    (d.replay cs).toNames = d.toNames := by
  refine replay_induction (P := fun d' => d'.toNames = d.toNames) rfl ?_
  intro d' c hc hd'
  have hunnamed := hcs c hc
  cases c with
  | insert n => exact hd'
  | note o => exact hd'
  | refer l => exact hd'
  | nameFunction scope name id => exact absurd hunnamed (Option.some_ne_none id)
  | nameClass scope name id => exact absurd hunnamed (Option.some_ne_none id)
  | nameMethod scope className name id => exact absurd hunnamed (Option.some_ne_none id)

/-- A step is, on every draft, the replay of changes that are read off the tables and leave them
as they are. -/
structure Follows (step : Draft → Draft) (changes : Names → List Change) : Prop where
  keepsNames : ∀ names, KeepsNames (changes names)
  eq_replay : ∀ d, step d = d.replay (changes d.toNames)

namespace Follows

/-- Two steps after each other follow their changes after each other: the second reads the
tables that the first did. -/
theorem comp {first second : Draft → Draft} {cs ds : Names → List Change}
    (hfirst : Follows first cs) (hsecond : Follows second ds) :
    Follows (fun d => second (first d)) (fun names => cs names ++ ds names) := by
  constructor
  · intro names c hc
    obtain hc | hc := List.mem_append.mp hc
    · exact hfirst.keepsNames names c hc
    · exact hsecond.keepsNames names c hc
  · -- the second step reads the tables after the first, which are those before it
    intro d
    rw [hsecond.eq_replay, hfirst.eq_replay, toNames_replay (hfirst.keepsNames _),
      replay_append]

/-- Steps over a list follow the changes of all its items. -/
theorem foldl {α : Type} {step : Draft → α → Draft} {changes : Names → α → List Change}
    (hstep : ∀ a, Follows (step · a) (changes · a)) (as : List α) :
    Follows (fun d => as.foldl step d) (fun names => as.flatMap (changes names)) := by
  induction as with
  | nil => exact ⟨fun _ c hc => absurd hc List.not_mem_nil, fun _ => rfl⟩
  | cons a as ih =>
      have hboth := (hstep a).comp ih
      simp only [List.foldl_cons, List.flatMap_cons]
      exact hboth

theorem bind_target (target : Names → Target) :
    Follows (fun d => d.bind (target d.toNames))
      (fun names => targetChanges (target names)) := by
  constructor
  · intro names c hc
    cases htarget : target names with
    | declared id => simp [htarget, targetChanges] at hc
    | external kind name =>
        simp only [htarget, targetChanges, List.mem_singleton] at hc
        rw [hc]
        rfl
  · intro d
    cases htarget : target d.toNames <;> simp [targetChanges, bind, apply]

/-- Referring to what the tables give follows the changes that put it in and count it. -/
theorem refer_target (target : Names → Target) (link : Target → Link) :
    Follows
      (fun d => (d.bind (target d.toNames)).apply (.refer (link (target d.toNames))))
      (fun names => targetChanges (target names) ++ [.refer (link (target names))]) := by
  have hbind := bind_target target
  constructor
  · intro names c hc
    obtain hc | hc := List.mem_append.mp hc
    · exact hbind.keepsNames names c hc
    · rw [List.mem_singleton.mp hc]
      rfl
  · intro d
    rw [hbind.eq_replay, replay_append]
    rfl

theorem linkImport (o : Outline) (name : Text) :
    Follows (Draft.linkImport o · name) (fun _ => importChanges o name) := by
  refine ⟨fun _ c hc => ?_, fun d => rfl⟩
  simp only [importChanges, List.mem_cons, List.not_mem_nil, or_false] at hc
  obtain rfl | rfl := hc <;> rfl

theorem noteAliases (o : Outline) : Follows (Draft.noteAliases o) (fun _ => [.note o]) := by
  refine ⟨fun _ c hc => ?_, fun d => rfl⟩
  rw [List.mem_singleton.mp hc]
  rfl

theorem linkCall (o : Outline) (source : Text) (within : Option Text) (c : CallSite) :
    Follows (Draft.linkCall o source within · c)
      (fun names => callChanges names o source within c) :=
  refer_target (fun names => callee names o within c)
    fun t => ⟨source, t.callRelation, t.id⟩

theorem linkFunction (o : Outline) (f : FunctionDecl) :
    Follows (Draft.linkFunction o · f) (fun names => functionCallChanges names o f) :=
  foldl (linkCall o (functionSource o f) none) f.calls

theorem linkMethod (o : Outline) (c : ClassDecl) (f : FunctionDecl) :
    Follows (Draft.linkMethod o c · f) (fun names => methodCallChanges names o c f) :=
  foldl (linkCall o (methodSource o c f) (some c.name)) f.calls

theorem linkBase (o : Outline) (c : ClassDecl) (base : Text) :
    Follows (Draft.linkBase o c · base) (fun names => baseChanges names o c base) :=
  refer_target (fun names => names.baseTarget o.moduleName base)
    fun t => ⟨t.id, .inherits, (c.node o).id⟩

/-- Linking a module follows its changes. -/
theorem link (o : Outline) : Follows (Draft.link · o) (fun names => linkChanges names o) := by
  have himports := foldl (linkImport o) o.importedModules
  have hfunctions := foldl (linkFunction o) o.functions
  have hmethods := foldl (fun c => foldl (linkMethod o c) c.methods) o.classes
  have hbases := foldl (fun c => foldl (linkBase o c) (baseNames c)) o.classes
  exact (((himports.comp (noteAliases o)).comp hfunctions).comp hmethods).comp hbases

end Follows

/-! ## Building -/

/-- The tables after all outlines are declared. -/
def declaredNames (os : List Outline) : Names := (os.foldl declare {}).toNames

/-- The changes that make the draft of some outlines: all are declared, then all are linked by
the tables that the declarations filled. -/
def buildChanges (os : List Outline) : List Change :=
  os.flatMap declareChanges ++ os.flatMap (linkChanges (declaredNames os))

theorem declareAll_eq_replay (os : List Outline) :
    os.foldl declare {} = ({} : Draft).replay (os.flatMap declareChanges) :=
  foldl_eq_replay declare_eq_replay os {}

/-- The draft of some outlines is the replay of its changes. -/
theorem build_eq_replay (os : List Outline) :
    build os = ({} : Draft).replay (buildChanges os) := by
  have hlinked := (Follows.foldl Follows.link os).eq_replay (os.foldl declare {})
  rw [build, buildChanges, replay_append, ← declareAll_eq_replay]
  exact hlinked

end Draft

end SymbolGraph
