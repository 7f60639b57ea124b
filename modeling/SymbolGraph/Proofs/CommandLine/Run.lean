import SymbolGraph.CommandLine.Run
set_option autoImplicit false

/-!
# What the parts of a run yield

Up to the place where a result is delivered, a run without a log file changes nothing but the
log: each part of it is quiet, and a run of quiet parts is quiet. Outlining sources and building
their graph yield what they yield outside of a run. Printing yields a line, and storing changes
the tree as it does outside of a run.
-/

namespace SymbolGraph

namespace Run

/-- With a tree, and without a log file, a part of a run gives a value and changes nothing but
the log. -/
def Yields {α : Type} (t : FileTree) (r : Run α) (v : Except RunFault α) : Prop :=
  ∀ s : Session, s.tree = t → s.logFile = none → ∃ log, r s = (v, { s with log })

/-- A part of a run that, with a tree and without a log file, changes nothing but the log. -/
def Quiet {α : Type} (t : FileTree) (r : Run α) : Prop := ∃ v, Yields t r v

section

variable {α β : Type} {t : FileTree} {x : Run α} {f : α → Run β}

theorem bind_apply (s : Session) : (x >>= f) s = ExceptT.bindCont f (x s).1 (x s).2 := rfl

theorem bind_of_ok {s s' : Session} {a : α} (hx : x s = (.ok a, s')) :
    (x >>= f) s = f a s' := by
  rw [bind_apply, hx]
  rfl

theorem bind_of_error {s s' : Session} {fault : RunFault} (hx : x s = (.error fault, s')) :
    (x >>= f) s = (.error fault, s') := by
  rw [bind_apply, hx]
  rfl

/-- A part of a run gives one value. -/
theorem Yields.unique {v w : Except RunFault α} (hv : Yields t x v)
    (hw : Yields t x w) : v = w := by
  obtain ⟨log, hlog⟩ := hv { tree := t, time := { clock := 0 } } rfl rfl
  obtain ⟨log', hlog'⟩ := hw { tree := t, time := { clock := 0 } } rfl rfl
  exact congrArg Prod.fst (hlog.symm.trans hlog')

theorem yields_pure (a : α) : Yields t (pure a) (.ok a) := fun s _ _ => ⟨s.log, rfl⟩

theorem yields_throw (fault : RunFault) : Yields t (throw fault : Run α) (.error fault) :=
  fun s _ _ => ⟨s.log, rfl⟩

theorem Yields.bind {a : α} {v : Except RunFault β} (hx : Yields t x (.ok a))
    (hf : Yields t (f a) v) : Yields t (x >>= f) v := by
  intro s ht hs
  obtain ⟨log, hlog⟩ := hx s ht hs
  obtain ⟨log', hlog'⟩ := hf { s with log } ht hs
  exact ⟨log', (bind_of_ok hlog).trans hlog'⟩

theorem Yields.bind_error {fault : RunFault} (hx : Yields t x (.error fault)) :
    Yields t (x >>= f) (.error fault) := by
  intro s ht hs
  obtain ⟨log, hlog⟩ := hx s ht hs
  exact ⟨log, bind_of_error hlog⟩

theorem Yields.discard {a : α} (hx : Yields t x (.ok a)) :
    Yields t (Functor.discard x) (.ok ()) := by
  rw [Functor.discard, map_const, Function.comp_apply, ← bind_pure_comp]
  exact hx.bind (yields_pure _)

theorem Yields.discard_error {fault : RunFault} (hx : Yields t x (.error fault)) :
    Yields t (Functor.discard x) (.error fault) := by
  rw [Functor.discard, map_const, Function.comp_apply, ← bind_pure_comp]
  exact hx.bind_error

theorem yields_tree : Yields t tree (.ok t) := by
  rintro s rfl -
  exact ⟨s.log, rfl⟩

theorem yields_note (level : Level) (parts : List Points) :
    Yields t (note level parts) (.ok ()) := by
  intro s ht hs
  have hnote : note level parts s = (.ok (), s.note ⟨level, parts.flatten⟩) := rfl
  rw [hnote, Session.note]
  split
  · rw [hs]
    exact ⟨_, rfl⟩
  · exact ⟨s.log, rfl⟩

theorem yields_ofExcept {ε : Type} (wrap : ε → RunFault) (e : Except ε α) :
    Yields t (ofExcept wrap e) (e.mapError wrap) := by
  cases e with
  | ok a => exact yields_pure a
  | error fault => exact yields_throw (wrap fault)

/-- A part that gives what a computation outside of the run gives, and another after it. -/
theorem Yields.bind_mapError {ε : Type} {wrap : ε → RunFault} {e : Except ε α}
    {g : α → Except ε β} (hx : Yields t x (e.mapError wrap))
    (hf : ∀ a, Yields t (f a) ((g a).mapError wrap)) :
    Yields t (x >>= f) ((e >>= g).mapError wrap) := by
  cases e with
  | error fault => exact hx.bind_error
  | ok a => exact hx.bind (hf a)

/-- A part that gives what a computation outside of the run gives, which is noted then. -/
theorem Yields.bind_noted {ε : Type} {wrap : ε → RunFault} {e : Except ε α} {f : α → Run α}
    (hx : Yields t x (e.mapError wrap)) (hf : ∀ a, Yields t (f a) (.ok a)) :
    Yields t (x >>= f) (e.mapError wrap) := by
  cases e with
  | error fault => exact hx.bind_error
  | ok a => exact hx.bind (hf a)

theorem Quiet.bind (hx : Quiet t x) (hf : ∀ a, Quiet t (f a)) : Quiet t (x >>= f) := by
  obtain ⟨v, hv⟩ := hx
  cases v with
  | error fault => exact ⟨_, hv.bind_error⟩
  | ok a =>
      obtain ⟨w, hw⟩ := hf a
      exact ⟨w, hv.bind hw⟩

theorem quiet_pure (a : α) : Quiet t (pure a) := ⟨_, yields_pure a⟩

theorem quiet_mapM {as : List α} (hf : ∀ a, Quiet t (f a)) : Quiet t (as.mapM f) := by
  induction as with
  | nil => exact quiet_pure []
  | cons a as ih =>
      rw [List.mapM_cons]
      exact (hf a).bind fun b => ih.bind fun bs => quiet_pure _

theorem quiet_forIn {as : List α} {g : α → β → Run (ForInStep β)} (hg : ∀ a b, Quiet t (g a b))
    (b : β) : Quiet t (forIn as b g) := by
  induction as generalizing b with
  | nil => exact quiet_pure b
  | cons a as ih =>
      rw [List.forIn_cons]
      refine (hg a b).bind fun step => ?_
      cases step with
      | done b => exact quiet_pure b
      | yield b => exact ih b

theorem Quiet.discard (hx : Quiet t x) : Quiet t (Functor.discard x) := by
  obtain ⟨v, hv⟩ := hx
  cases v with
  | error fault => exact ⟨_, hv.discard_error⟩
  | ok a => exact ⟨_, hv.discard⟩

theorem quiet_tree : Quiet t tree := ⟨_, yields_tree⟩

theorem quiet_note (level : Level) (parts : List Points) : Quiet t (note level parts) :=
  ⟨_, yields_note level parts⟩

theorem quiet_ofExcept {ε : Type} (wrap : ε → RunFault) (e : Except ε α) :
    Quiet t (ofExcept wrap e) := ⟨_, yields_ofExcept wrap e⟩

end

section

variable {t : FileTree}

theorem quiet_resolve (p : Path) : Quiet t (resolve p) :=
  quiet_tree.bind fun _ => quiet_ofExcept _ _

theorem quiet_loadOne (t' : FileTree) (root path : Path) : Quiet t (loadOne t' root path) := by
  unfold loadOne
  split
  · exact quiet_pure _
  · exact (quiet_note _ _).bind fun _ => quiet_pure _
  · exact ⟨_, yields_throw _⟩

theorem quiet_load (root : Path) (paths : List Path) : Quiet t (load root paths) :=
  (quiet_note _ _).bind fun _ => quiet_tree.bind fun t' =>
    (quiet_mapM fun path => quiet_loadOne t' root path).bind fun _ =>
      (quiet_note _ _).bind fun _ => quiet_pure _

theorem quiet_scanOptions (settings : Settings) : Quiet t (scanOptions settings) :=
  (quiet_ofExcept _ _).bind fun _ => quiet_pure _

theorem quiet_scan (options : ScanOptions) (root : Path) : Quiet t (scan options root) := by
  unfold scan
  refine (quiet_note _ _).bind fun _ => quiet_tree.bind fun t' => ?_
  dsimp only
  split
  · exact ⟨_, (yields_throw _).bind_error⟩
  · have hskipped : ∀ (f : Found) (_ : PUnit), Quiet t (do
        note .warning [.ofString "Skipping large file: ", (root.append ⟨false, f⟩).written]
        pure (ForInStep.yield PUnit.unit)) :=
      fun f _ => (quiet_note _ _).bind fun _ => quiet_pure _
    exact (quiet_forIn hskipped ⟨⟩).bind fun _ => (quiet_note _ _).bind fun _ => quiet_pure _

/-- Gathering the sources of a path changes nothing but the log. -/
theorem quiet_gather (settings : Settings) (target : Path) :
    Quiet t (gather settings target) := by
  unfold gather
  refine quiet_tree.bind fun t' => (quiet_ofExcept _ _).bind fun e => ?_
  split
  · exact (quiet_resolve _).bind fun root => (quiet_scanOptions settings).discard.bind fun _ =>
      (quiet_resolve _).bind fun path => quiet_load root [path]
  · exact (quiet_resolve _).bind fun root => (quiet_scanOptions settings).bind fun options =>
      (quiet_scan options root).bind fun paths => quiet_load root paths

/-- A path that leads to a file gives that file alone. -/
theorem yields_gather_file {settings : Settings} {target root path : Path} {bytes : List UInt8}
    {extensions : List Text} {file : SourceRecord}
    (hfind : t.find? target = .ok (some (.file bytes)))
    (hroot : t.resolve target.parent = .ok root)
    (hextensions : settings.extensionList = .ok extensions)
    (hpath : t.resolve target = .ok path) (hload : t.load root path = .ok file) :
    Yields t (gather settings target) (.ok [file]) := by
  have hresolve : ∀ {p q : Path}, t.resolve p = .ok q →
      Yields t (resolve p) (.ok q) := fun hq =>
    yields_tree.bind (by rw [hq]; exact yields_pure _)
  have hoptions : Yields t (scanOptions settings) (.ok _) :=
    Yields.bind (a := extensions) (by rw [hextensions]; exact yields_pure _) (yields_pure _)
  have hone : Yields t (loadOne t root path) (.ok (some file)) := by
    rw [loadOne, hload]
    exact yields_pure _
  have hloaded : Yields t (load root [path]) (.ok [file]) := by
    refine (yields_note _ _).bind (yields_tree.bind (Yields.bind (a := [some file]) ?_ ?_))
    · rw [List.mapM_cons]
      exact hone.bind (Yields.bind (a := []) (yields_pure _) (yields_pure _))
    · exact (yields_note _ _).bind (yields_pure _)
  unfold gather
  refine yields_tree.bind (Yields.bind (a := some (.file bytes)) ?_ ?_)
  · rw [hfind]
    exact yields_pure _
  · exact (hresolve hroot).bind (hoptions.discard.bind ((hresolve hpath).bind hloaded))

/-! ## Outlines and graphs -/

theorem yields_outlines (options : ReadingOptions) (sources : List SourceRecord)
    {report : OutlinedSource → Run Unit} (hreport : ∀ o, Yields t (report o) (.ok ())) :
    Yields t (sources.mapM fun f => do
      let o ← ofExcept .source (f.outline options)
      report o
      return o) ((sources.mapM (SourceRecord.outline options)).mapError .source) := by
  induction sources with
  | nil => exact yields_pure []
  | cons f sources ih =>
      have hone : Yields t (do
          let o ← ofExcept .source (f.outline options)
          report o
          return o) ((f.outline options).mapError .source) :=
        (yields_ofExcept _ _).bind_noted fun o => (hreport o).bind (yields_pure o)
      rw [List.mapM_cons, List.mapM_cons]
      exact hone.bind_mapError fun o => ih.bind_mapError fun os => yields_pure _

theorem yields_outline (options : AnalysisOptions) (files : List SourceRecord) :
    Yields t (outline options files)
      ((SourceRecord.outlineAll options files []).mapError .source) :=
  (yields_ofExcept _ _).bind_mapError fun sources =>
    (yields_note _ _).bind (yields_outlines options.reading sources fun _ => yields_note _ _)

theorem yields_graph (os : List OutlinedSource) :
    Yields t (graph os) ((OutlinedSource.graph os).mapError .source) :=
  (yields_ofExcept _ _).bind_noted fun g =>
    (yields_note _ _).bind ((yields_note _ _).bind (yields_pure g))

/-! ## Printing and storing -/

theorem yields_print (text : Text) :
    Yields t (print (.ok text.points)) (.ok (text ++ ['\n'])) := by
  have hencode : text.points.encode = .ok text := Points.encode_eq_ok_iff.mpr rfl
  refine Yields.bind (a := text.points) (yields_pure _)
    (Yields.bind (a := text) ?_ (yields_pure _))
  rw [hencode]
  exact yields_pure _

/-- What has no text is not printed. -/
theorem exists_yields_print_error {written : Except StoreFault Points}
    (hwritten : ∀ text : Text, written ≠ .ok text.points) :
    ∃ fault, Yields t (print written) (.error fault) := by
  cases written with
  | error fault => exact ⟨_, Yields.bind_error (yields_throw (.store fault))⟩
  | ok s =>
      cases hencode : s.encode with
      | ok text =>
          rw [Points.encode_eq_ok_iff] at hencode
          exact absurd (congrArg Except.ok hencode) (hwritten text)
      | error fault =>
          refine ⟨.store (.encode fault),
            Yields.bind (a := s) (yields_pure _) (Yields.bind_error ?_)⟩
          rw [hencode]
          exact yields_throw _

theorem save_of_stored {g : GraphRecord} {path : Path} {s : Session} {t' : FileTree}
    (hs : s.logFile = none) (hsave : g.save s.tree path = (t', none)) :
    ∃ log, save g path s = (.ok (), { s with tree := t', log }) := by
  obtain ⟨log, hlog⟩ := yields_note .info [.ofString "Saved graph with ", countText g.nodes,
    .ofString " nodes to ", path.written] { s with tree := t' } rfl hs
  refine ⟨log, ?_⟩
  rw [← hlog]
  have htree : tree s = (.ok s.tree, s) := rfl
  rw [save, bind_of_ok htree, hsave]
  rfl

theorem save_of_fault {g : GraphRecord} {path : Path} {s : Session} {t' : FileTree}
    {fault : StoreFault} (hsave : g.save s.tree path = (t', some fault)) :
    save g path s = (.error (.store fault), { s with tree := t' }) := by
  have htree : tree s = (.ok s.tree, s) := rfl
  rw [save, bind_of_ok htree, hsave]
  rfl

end

end Run

end SymbolGraph
