import SymbolGraph.Proofs.Line.Place
import SymbolGraph.Proofs.Outline.Step
import SymbolGraph.Proofs.Text.Separator
set_option autoImplicit false

/-!
# Reading an outline by places

The outline of a text, read with a cursor that goes through the places of its lines: lines,
parts of a line's form and segments of names are looked up, and one that is not there ends the
reading without a result. The cursor comes from block ends, ends of docstrings and runs of
decorators, none of which need agree with each other: a docstring may end behind the block that
it opens in, or with the file. The main result is that the reading has a result for every text,
and that it is the outline (`ByPlace.outline_eq`).
-/

namespace SymbolGraph

open Text

namespace ByPlace

/-! ## Parts of a line -/

/-- The part number `k` of what a line's form names. -/
def part (l : Line) (k : Nat) : Option (Option Text) := do
  let parts ← l.form.parts
  parts[k]?

/-- The names of an import, up to a comment. -/
def importedNames (t : Text) : Option (List ImportedName) := do
  let names ← (split '#' t).head?
  return (commaList (trimBy isListMark (trim names))).map importedName

/-- The import on a line, if the line is one. -/
def importAt (l : Line) : Option (Option ImportDecl) :=
  match l.form with
  | .fromImport .. => do
    let path ← (← part l 0)
    let names ← importedNames (← (← part l 1))
    return some { style := .fromModule, path, names, line := l.number, code := l.content }
  | .plainImport .. => do
    let names ← importedNames (← (← part l 0))
    let path ← if names = [] then some [] else names[0]?.map (·.name)
    return some { style := .plain, path, names, line := l.number, code := l.content }
  | _ => return none

/-- The variable assigned on a line, if the line is an assignment at the top level. -/
def assignedAt (options : OutlineOptions) (l : Line) : Option (Option VariableDecl) :=
  match l.form with
  | .assignment .. =>
    if l.indent = 0 then do
      let name ← (← part l 1)
      let value ← (← part l 2)
      return some
        { name, line := l.number, snippet := some (snippet value options.snippetLength) }
    else return none
  | _ => return none

/-- The call site of a called name with its column; words of the language have none. -/
def callSite (l : Line) (called : Nat × Text) : Option (Option CallSite) := do
  let first ← (split '.' called.2).head?
  return if callKeywords.contains first then none
    else some { name := called.2, line := l.number, column := called.1 }

/-- The call sites of a line. -/
def callSites (l : Line) : Option (List CallSite) := do
  let sites ← (calledNames 1 l.raw).mapM (callSite l)
  return sites.filterMap id

/-! ## Declarations -/

/-- The lines from one place to another. -/
def slice (ls : List Line) (start stop : Nat) : List Line := (ls.take (stop + 1)).drop start

/-- The call sites from one place to another. -/
def callsBetween (ls : List Line) (start stop : Nat) : Option (List CallSite) := do
  let body := (slice ls start stop).filter fun l => ! (l.isBlank || l.form.isHeader)
  let sites ← body.mapM callSites
  return sites.flatten

/-- The function with the header at place `i`, and the place of its last line. -/
def functionAt (options : OutlineOptions) (ls : List Line) (i : Nat) (decorators : List Text) :
    Option (FunctionDecl × Nat) := do
  let l ← ls[i]?
  let [async, some name, parameters, hint] ← l.form.parts | none
  let last ← lastOfBlock ls l.indent i
  let (doc, first) ← docstring options.docstrings ls l.indent i last
  let calls ← callsBetween ls first last
  return ({ name
            parameters := commaList (parameters.getD [])
            returnHint := (hint.map trim).filter (· ≠ [])
            isAsync := some async.isSome
            isPrivate := some (name.head? = some '_')
            decorators
            firstLine := l.number
            lastLine := last + 1
            docstring := doc
            excerpt := some (Line.excerpt (slice ls i last))
            calls }, last)

/-- The method with the header at place `i` in a block indented by more than `indent`, if there
is one, and the last place that is passed over with it. -/
def methodAt (options : OutlineOptions) (ls : List Line) (indent i : Nat)
    (decorators : List Text) :
    Option (Option FunctionDecl × Nat) := do
  let l ← ls[i]?
  match l.form, decide (indent < l.indent) with
  | .functionHeader .., true =>
    let (f, last) ← functionAt options ls i decorators
    return (some f, last)
  | .classHeader .., true => return (none, ← lastOfBlock ls l.indent i)
  | _, _ => return (none, i)

/-- The methods from place `i` to `stop`. The cursor must advance. -/
def methodsFrom (options : OutlineOptions) (ls : List Line) (indent stop i : Nat) :
    Option (List FunctionDecl) :=
  if _h : i ≤ stop then do
    let (texts, place) ← decorators ls stop i
    if stop < place then return []
    else
      let (method, last) ← methodAt options ls indent place texts
      if _hlast : i ≤ last then
        let later ← methodsFrom options ls indent stop (last + 1)
        return method.toList ++ later
      else none
  else return []
termination_by stop + 1 - i

/-- The class with the header at place `i`, and the place of its last line. -/
def classAt (options : OutlineOptions) (ls : List Line) (i : Nat) (decorators : List Text) :
    Option (ClassDecl × Nat) := do
  let l ← ls[i]?
  let [some name, bases] ← l.form.parts | none
  let last ← lastOfBlock ls l.indent i
  let (doc, first) ← docstring options.docstrings ls l.indent i last
  let methods ← methodsFrom options ls l.indent last (min last first)
  return ({ name
            bases := commaList (bases.getD [])
            decorators
            firstLine := l.number
            lastLine := last + 1
            docstring := doc
            excerpt := some (Line.excerpt (slice ls i last))
            methods }, last)

/-- The declaration with the header at place `i`, if there is one, and the last place that is
passed over with it. -/
def declarationAt (options : OutlineOptions) (ls : List Line) (i : Nat)
    (decorators : List Text) :
    Option (Option Declaration × Nat) := do
  let l ← ls[i]?
  match l.form with
  | .classHeader .. =>
    let (c, last) ← classAt options ls i decorators
    return (some (.class c), last)
  | .functionHeader .. =>
    let (f, last) ← functionAt options ls i decorators
    return (some (.function f), last)
  | _ => return (none, i)

/-- The declarations from place `i` to `last`. The cursor must advance. -/
def declarationsFrom (options : OutlineOptions) (ls : List Line) (last i : Nat) :
    Option (List Declaration) :=
  if _h : i ≤ last then do
    let l ← ls[i]?
    if l.isBlank then declarationsFrom options ls last (i + 1)
    else
      let (texts, place) ← decorators ls last i
      if last < place then return []
      else
        let (declaration, taken) ← declarationAt options ls place texts
        if _htaken : i ≤ taken then
          let later ← declarationsFrom options ls last (taken + 1)
          return declaration.toList ++ later
        else none
  else return []
termination_by last + 1 - i

/-- The name of a file without its directories and its `.py`. -/
def moduleName (fileName : Text) : Option Text := do
  let base ← (split '/' (replaceChar '\\' '/' fileName)).getLast?
  return replaceChar '|' '_' ((dropTail? ".py".toList base).getD base)

/-- The outline of a text. -/
def outline (options : OutlineOptions) (filePath fileName content : Text) : Option Outline := do
  let ls := Line.scan content
  let imports ← ls.mapM importAt
  let ds ← declarationsFrom options ls (ls.length - 1) 0
  let globals ← ls.mapM (assignedAt options)
  return { filePath := some filePath
           moduleName := ← moduleName fileName
           classes := ds.filterMap Declaration.class?
           functions := ds.filterMap Declaration.function?
           imports := imports.filterMap id
           globals := globals.filterMap id }

/-! ## Every part is there -/

/-- Where each look-up succeeds, all of them do. -/
theorem mapM_eq_some {α β : Type} {look : α → Option β} {value : α → β} {as : List α}
    (hlook : ∀ a ∈ as, look a = some (value a)) : as.mapM look = some (as.map value) := by
  induction as with
  | nil => rfl
  | cons a as ih =>
      have hlater := ih fun b hb => hlook b (List.mem_cons_of_mem a hb)
      rw [List.mapM_cons, hlook a List.mem_cons_self, hlater]
      rfl

theorem importedNames_eq (t : Text) : importedNames t = some (SymbolGraph.importedNames t) := by
  rw [importedNames, head?_split]
  rfl

theorem importAt_eq (l : Line) : importAt l = some l.import? := by
  unfold importAt Line.import?
  cases hform : l.form with
  | plainImport names =>
      simp only [part, hform, LineForm.parts, Option.bind_eq_bind, Option.bind_some,
        List.getElem?_cons_zero, importedNames_eq]
      cases SymbolGraph.importedNames names <;> rfl
  | fromImport path names =>
      simp only [part, hform, LineForm.parts, Option.bind_eq_bind, Option.bind_some,
        List.getElem?_cons_zero, List.getElem?_cons_succ, importedNames_eq]
      rfl
  | _ => rfl

theorem assignedAt_eq (options : OutlineOptions) (l : Line) :
    assignedAt options l = some (l.assigned? options) := by
  unfold assignedAt Line.assigned?
  cases hform : l.form with
  | assignment indent name value =>
      simp only [part, hform, LineForm.parts]
      split <;> rfl
  | _ => rfl

theorem callSite_eq (l : Line) (called : Nat × Text) :
    callSite l called =
      some (if callKeywords.contains (firstSegment called.2) then none
        else some { name := called.2, line := l.number, column := called.1 }) := by
  rw [callSite, head?_split]
  rfl

theorem callSites_eq (l : Line) : callSites l = some l.callSites := by
  have hsites := mapM_eq_some fun called (_ : called ∈ calledNames 1 l.raw) =>
      callSite_eq l called
  rw [callSites, hsites]
  simp only [Option.bind_eq_bind, Option.bind_some, Option.pure_def, Line.callSites]
  induction calledNames 1 l.raw with
  | nil => rfl
  | cons called later ih =>
      cases hword : callKeywords.contains (firstSegment called.2) <;> simp_all

theorem moduleName_eq (fileName : Text) :
    moduleName fileName = some (moduleNameOf fileName) := by
  rw [moduleName, moduleNameOf, getLast?_split]
  rfl

/-! ## The lines of a block -/

/-- Each line has its place for its index, and its content from its text. -/
def Scanned (ls : List Line) : Prop :=
  ∀ (i : Nat) (l : Line), ls[i]? = some l → l.index = i ∧ l.content = trim l.raw

theorem scanned_scan (t : Text) : Scanned (Line.scan t) := by
  intro i l hl
  rw [Line.scan, List.getElem?_mapIdx] at hl
  obtain ⟨raw, -, rfl⟩ := Option.map_eq_some_iff.mp hl
  exact ⟨rfl, rfl⟩

section

variable {ls : List Line} {i : Nat} {l : Line}

theorem Scanned.content (hls : Scanned ls) : ∀ l ∈ ls, l.content = trim l.raw := by
  intro l hl
  obtain ⟨i, hi⟩ := List.mem_iff_getElem?.mp hl
  exact (hls i l hi).2

/-- The slice of a block's body. -/
theorem slice_body (ls : List Line) (i k : Nat) (indent : Int) :
    slice ls (i + 1 + k) (blockEnd ls i indent) = (block indent (ls.drop (i + 1))).drop k := by
  have hblock : (ls.drop (i + 1)).take (block indent (ls.drop (i + 1))).length =
      block indent (ls.drop (i + 1)) :=
    (List.prefix_iff_eq_take.mp (block_isPrefix _ _)).symm
  have hsize : blockEnd ls i indent + 1 - (i + 1 + k) =
      (block indent (ls.drop (i + 1))).length - k := by
    rw [blockEnd]
    omega
  have hdrop : ls.drop (i + 1 + k) = (ls.drop (i + 1)).drop k := List.drop_drop.symm
  rw [slice, List.drop_take, hsize, hdrop, ← List.drop_take, hblock]

/-- The slice of a block with its header. -/
theorem slice_header (hl : ls[i]? = some l) (indent : Int) :
    slice ls i (blockEnd ls i indent) = l :: block indent (ls.drop (i + 1)) := by
  obtain ⟨hi, rfl⟩ := List.getElem?_eq_some_iff.mp hl
  have hle := le_blockEnd ls i indent
  have hlt := blockEnd_lt_length hi indent
  have hbody := slice_body ls i 0 indent
  have hheader : i < (ls.take (blockEnd ls i indent + 1)).length := by
    rw [List.length_take]
    omega
  rw [List.drop_zero, Nat.add_zero] at hbody
  rw [slice, List.drop_eq_getElem_cons hheader, ← slice, hbody, List.getElem_take]

theorem callsBetween_eq (ls : List Line) (start stop : Nat) :
    callsBetween ls start stop = some (bodyCalls (slice ls start stop)) := by
  rw [callsBetween, bodyCalls, mapM_eq_some fun l _ => callSites_eq l]
  simp only [Option.bind_eq_bind, Option.bind_some, List.flatMap_def]
  rfl

/-- The docstring of a block is looked for in the block, but may end behind it. -/
theorem docstring_block (hls : Scanned ls) (hi : i < ls.length) (wanted : Bool) (indent : Int) :
    docstring wanted ls indent i (blockEnd ls i indent) =
      some ((Docstring.readIf wanted indent (block indent (ls.drop (i + 1))).length
          (ls.drop (i + 1))).text,
        i + 1 + (Docstring.readIf wanted indent (block indent (ls.drop (i + 1))).length
          (ls.drop (i + 1))).bodyOffset) := by
  have hsize : blockEnd ls i indent - i = (block indent (ls.drop (i + 1))).length :=
    Nat.add_sub_cancel_left _ _
  rw [docstring_eq hls.content wanted indent (le_blockEnd ls i indent)
    (blockEnd_lt_length hi indent), hsize]

/-- The number of a block's last line. -/
theorem lastLine_eq (hls : Scanned ls) (hl : ls[i]? = some l) (indent : Int) :
    ((blockEnd ls i indent : Nat) : Int) + 1 =
      l.number + (block indent (ls.drop (i + 1))).length := by
  rw [Line.number, (hls i l hl).1, blockEnd]
  omega

/-! ## No look-up fails -/

variable {options : OutlineOptions}

theorem functionAt_eq (hls : Scanned ls) (hl : ls[i]? = some l) {async hint : Option Text}
    {name parameters : Text} (hform : l.form = .functionHeader async name parameters hint)
    (decorators : List Text) :
    functionAt options ls i decorators =
      some (FunctionHeader.declare { async, name, parameters, hint } options decorators l
        (ls.drop (i + 1)), blockEnd ls i l.indent) := by
  have hi : i < ls.length := (List.getElem?_eq_some_iff.mp hl).1
  have hdoc := docstring_block hls hi options.docstrings l.indent
  simp only [functionAt, hl, hform, LineForm.parts, Option.bind_eq_bind, Option.bind_some,
    lastOfBlock_eq, hdoc, callsBetween_eq, slice_body, slice_header hl, lastLine_eq hls hl]
  rfl

/-- A line of a class's block is taken as the reader of methods takes it, since a header there
is indented deeper than that of the class. -/
theorem methodAt_eq (hls : Scanned ls) (hl : ls[i]? = some l) {indent : Nat}
    (hindent : l.form.isHeader = true → indent < l.indent) (decorators : List Text) :
    methodAt options ls indent i decorators =
      some (l.method? options decorators (ls.drop (i + 1)), i + l.taken (ls.drop (i + 1))) := by
  simp only [methodAt, hl, Line.method?, Line.taken, Option.bind_eq_bind, Option.bind_some]
  cases hform : l.form with
  | functionHeader async name parameters hint =>
      have hdeeper : indent < l.indent := hindent (by rw [hform]; rfl)
      simp only [hdeeper, decide_true, functionAt_eq hls hl hform, Option.bind_some]
      rfl
  | classHeader name bases =>
      have hdeeper : indent < l.indent := hindent (by rw [hform]; rfl)
      simp only [hdeeper, decide_true, lastOfBlock_eq, Option.bind_some]
      rfl
  | _ => rfl

/-- One step of the reader of methods, told by places. -/
theorem methods_drop {stop place : Nat} {run : List Line}
    (hrun : decoratorRun ((ls.drop i).take (stop + 1 - i)) = run)
    (hplace : i + run.length = place) (hle : place ≤ stop)
    (hdrop : ls.drop place = l :: ls.drop (place + 1)) :
    methods options (stop + 1 - i) (ls.drop i) =
      (l.method? options (decoratorTexts run) (ls.drop (place + 1))).toList ++
        methods options (stop + 1 - (place + l.taken (ls.drop (place + 1)) + 1))
          (ls.drop (place + l.taken (ls.drop (place + 1)) + 1)) := by
  have hfirst : (ls.drop i).drop (decoratorRun ((ls.drop i).take (stop + 1 - i))).length =
      l :: ls.drop (place + 1) := by
    rw [hrun, List.drop_drop, hplace, hdrop]
  have hsize : (decoratorRun ((ls.drop i).take (stop + 1 - i))).length < stop + 1 - i := by
    rw [hrun]
    omega
  have hleft : stop + 1 - i - (run.length + 1) - l.taken (ls.drop (place + 1)) =
      stop + 1 - (place + l.taken (ls.drop (place + 1)) + 1) := by
    omega
  have hnext : place + 1 + l.taken (ls.drop (place + 1)) =
      place + l.taken (ls.drop (place + 1)) + 1 := by
    omega
  rw [methods_of_drop_eq_cons hfirst hsize, hrun, hleft, List.drop_drop, hnext]

/-- The methods from a place on are those of the lines from there up to the end of the block, if
that is where the place lies or behind it. -/
theorem methodsFrom_eq (hls : Scanned ls) {indent stop : Nat}
    (hstop : stop < ls.length) (i : Nat)
    (hinside : ∀ k, i ≤ k → k ≤ stop → ∀ l, ls[k]? = some l → l.form.isHeader = true →
      indent < l.indent) :
    methodsFrom options ls indent stop i =
      some (methods options (stop + 1 - i) (ls.drop i)) := by
  rw [methodsFrom]
  by_cases hle : i ≤ stop
  · have hdecorators := decorators_eq hstop i
    generalize hrun : decoratorRun ((ls.drop i).take (stop + 1 - i)) = run at hdecorators
    rw [dif_pos hle, hdecorators]
    simp only [Option.bind_eq_bind, Option.bind_some]
    by_cases hplace : stop < i + run.length
    · have hsize : stop + 1 - i ≤ run.length := by omega
      rw [if_pos hplace, methods_of_stop (Or.inr (hrun ▸ hsize))]
      rfl
    · obtain ⟨l, hl, hdrop⟩ := exists_line (Nat.lt_of_le_of_lt (Nat.not_lt.mp hplace) hstop)
      have hlater :=
        methodsFrom_eq hls hstop (i + run.length + l.taken (ls.drop (i + run.length + 1)) + 1)
        fun k hk => hinside k (by omega)
      rw [if_neg hplace, methodAt_eq hls hl (hinside _ (Nat.le_add_right _ _) (by omega) l hl)]
      simp only [Option.bind_some]
      rw [dif_pos (by omega), hlater, methods_drop hrun rfl (Nat.not_lt.mp hplace) hdrop]
      rfl
  · have hsize : stop + 1 - i = 0 := by omega
    rw [dif_neg hle, hsize, methods_of_stop (Or.inr (Nat.zero_le _))]
    rfl
termination_by stop + 1 - i

/-- The header of a class is passed over where the search for its methods starts on it. -/
theorem methodsFrom_header (hl : ls[i]? = some l) {name : Text} {bases : Option Text}
    (hform : l.form = .classHeader name bases) :
    methodsFrom options ls l.indent i i = some [] := by
  have hdecorators : decorators ls i i = some ([], i) := by
    rw [decorators, dif_pos (Nat.le_refl i), hl]
    simp [Line.isDecorator, Line.isBlank, hform]
  have hmethod : methodAt options ls l.indent i [] = some (none, i) := by
    simp [methodAt, hl, hform]
  have hlater : methodsFrom options ls l.indent i (i + 1) = some [] := by
    rw [methodsFrom, dif_neg (by omega)]
    rfl
  rw [methodsFrom, dif_pos (Nat.le_refl i), hdecorators]
  simp [hmethod, hlater]

/-- The search for the methods of a class starts behind its docstring, but no later than on the
last line of its block. In an empty block that is the header. -/
theorem methodsFrom_body (hls : Scanned ls) (hl : ls[i]? = some l) {name : Text}
    {bases : Option Text} (hform : l.form = .classHeader name bases) (offset : Nat) {size : Nat}
    (hsize : (block l.indent (ls.drop (i + 1))).length = size) :
    methodsFrom options ls l.indent (blockEnd ls i l.indent)
        (min (blockEnd ls i l.indent) (i + 1 + offset)) =
      some (methods options (size - min offset (size - 1))
        ((ls.drop (i + 1)).drop (min offset (size - 1)))) := by
  have hi : i < ls.length := (List.getElem?_eq_some_iff.mp hl).1
  have hend : blockEnd ls i l.indent = i + size := by rw [blockEnd, hsize]
  by_cases hempty : size = 0
  · have hcursor : min i (i + 1 + offset) = i := by omega
    have hnone : size - min offset (size - 1) = 0 := by omega
    rw [hend, hempty, Nat.add_zero, hcursor, methodsFrom_header hl hform, ← hempty, hnone,
      methods_of_stop (Or.inr (Nat.zero_le _))]
  · have hcursor : min (blockEnd ls i l.indent) (i + 1 + offset) =
        i + 1 + min offset (size - 1) := by
      omega
    have hleft : blockEnd ls i l.indent + 1 - (i + 1 + min offset (size - 1)) =
        size - min offset (size - 1) := by
      omega
    rw [hcursor, methodsFrom_eq hls (blockEnd_lt_length hi _), hleft, List.drop_drop]
    intro k hik hk l' hl' hheader
    have hin :=
      ((le_blockEnd_iff (by omega) (l.indent : Int)).mp hk).2 k (by omega) k.le_refl l' hl'
    exact Int.ofNat_lt.mp (Line.lt_indent_of_inBlock hin (Line.isBlank_of_isHeader hheader))

theorem classAt_eq (hls : Scanned ls) (hl : ls[i]? = some l) {name : Text} {bases : Option Text}
    (hform : l.form = .classHeader name bases) (decorators : List Text) :
    classAt options ls i decorators =
      some (declareClass options name bases decorators l (ls.drop (i + 1)),
        blockEnd ls i l.indent) := by
  have hi : i < ls.length := (List.getElem?_eq_some_iff.mp hl).1
  have hdoc := docstring_block hls hi options.docstrings l.indent
  simp only [classAt, hl, hform, LineForm.parts, Option.bind_eq_bind, Option.bind_some,
    lastOfBlock_eq, hdoc, methodsFrom_body hls hl hform _ rfl, slice_header hl,
    lastLine_eq hls hl]
  rfl

theorem declarationAt_eq (hls : Scanned ls) (hl : ls[i]? = some l) (decorators : List Text) :
    declarationAt options ls i decorators =
      some (l.declaration? options decorators (ls.drop (i + 1)),
        i + l.taken (ls.drop (i + 1))) := by
  simp only [declarationAt, hl, Line.declaration?, Line.taken, Option.bind_eq_bind,
    Option.bind_some]
  cases hform : l.form with
  | functionHeader async name parameters hint =>
      simp only [functionAt_eq hls hl hform, Option.bind_some]
      rfl
  | classHeader name bases =>
      simp only [classAt_eq hls hl hform, Option.bind_some]
      rfl
  | _ => rfl

/-- One step of the reader of declarations, told by places. -/
theorem declarations_drop {place : Nat} {run : List Line}
    (hrun : decoratorRun (ls.drop i) = run) (hplace : i + run.length = place)
    (hdrop : ls.drop place = l :: ls.drop (place + 1)) :
    declarations options (ls.drop i) =
      (l.declaration? options (decoratorTexts run) (ls.drop (place + 1))).toList ++
        declarations options (ls.drop (place + l.taken (ls.drop (place + 1)) + 1)) := by
  have hfirst : (ls.drop i).drop (decoratorRun (ls.drop i)).length =
      l :: ls.drop (place + 1) := by
    rw [hrun, List.drop_drop, hplace, hdrop]
  have hnext : place + 1 + l.taken (ls.drop (place + 1)) =
      place + l.taken (ls.drop (place + 1)) + 1 := by
    omega
  rw [declarations_of_drop_eq_cons hfirst, hrun, List.drop_drop, hnext]

/-- The declarations from a place on are those of the lines from there on. -/
theorem declarationsFrom_eq (hls : Scanned ls) (hne : ls ≠ []) (i : Nat) :
    declarationsFrom options ls (ls.length - 1) i =
      some (declarations options (ls.drop i)) := by
  have hlast : ls.length - 1 < ls.length :=
    Nat.sub_one_lt fun h => hne (List.length_eq_zero_iff.mp h)
  rw [declarationsFrom]
  by_cases hle : i ≤ ls.length - 1
  · obtain ⟨first, hfirst, hcons⟩ := exists_line (Nat.lt_of_le_of_lt hle hlast)
    rw [dif_pos hle, hfirst]
    simp only [Option.bind_eq_bind, Option.bind_some]
    cases hblank : first.isBlank with
    | true =>
        have hskipped : declarations options ([first] ++ ls.drop (i + 1)) =
            declarations options (ls.drop (i + 1)) :=
          declarations_blank_append options (by simpa using hblank) _
        rw [if_pos rfl, declarationsFrom_eq hls hne (i + 1), hcons, ← hskipped]
        rfl
    | false =>
        have hall : (ls.drop i).take (ls.length - 1 + 1 - i) = ls.drop i := by
          refine List.take_of_length_le ?_
          rw [List.length_drop]
          omega
        have hdecorators := decorators_eq hlast i
        rw [hall] at hdecorators
        generalize hrun : decoratorRun (ls.drop i) = run at hdecorators
        rw [if_neg Bool.false_ne_true, hdecorators]
        simp only [Option.bind_some]
        by_cases hplace : ls.length - 1 < i + run.length
        · have hnone : (ls.drop i).drop (decoratorRun (ls.drop i)).length = [] := by
            rw [hrun, List.drop_drop]
            exact List.drop_eq_nil_iff.mpr (by omega)
          rw [if_pos hplace, declarations_of_drop_eq_nil hnone]
          rfl
        · obtain ⟨l, hl, hdrop⟩ := exists_line (Nat.lt_of_le_of_lt (Nat.not_lt.mp hplace) hlast)
          have hlater := declarationsFrom_eq hls hne
            (i + run.length + l.taken (ls.drop (i + run.length + 1)) + 1)
          rw [if_neg hplace, declarationAt_eq hls hl]
          simp only [Option.bind_some]
          rw [dif_pos (by omega), hlater, declarations_drop hrun rfl hdrop]
          rfl
  · have hnone : ls.drop i = [] := List.drop_eq_nil_iff.mpr (by omega)
    rw [dif_neg hle, hnone, declarations_of_drop_eq_nil rfl]
    rfl
termination_by ls.length - i

end

/-- Every text has an outline, which is found by places without a look-up that fails. -/
theorem outline_eq (options : OutlineOptions) (filePath fileName content : Text) :
    outline options filePath fileName content =
      some (Outline.read options filePath fileName content) := by
  have hne : Line.scan content ≠ [] := by
    rw [Line.scan, Ne, List.mapIdx_eq_nil_iff]
    exact split_ne_nil _ _
  have hdeclarations : declarationsFrom options (Line.scan content)
      ((Line.scan content).length - 1) 0 =
      some (declarations options (Line.scan content)) :=
    declarationsFrom_eq (scanned_scan content) hne 0
  simp only [outline, mapM_eq_some fun l _ => importAt_eq l, hdeclarations,
    mapM_eq_some fun l _ => assignedAt_eq options l, moduleName_eq, Option.bind_eq_bind,
    Option.bind_some, List.filterMap_map]
  rfl

end ByPlace

end SymbolGraph
