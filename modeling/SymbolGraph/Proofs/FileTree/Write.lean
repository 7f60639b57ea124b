import SymbolGraph.Proofs.FileTree.Follow
set_option autoImplicit false

/-!
# Writing over a file

A file that is there can be written, and then it holds what was written and all other files hold
what they held (`exists_write`), also where links lead to it: no name on the way is looked up at
the place of the file, so that all paths lead where they led before. The directories above the
file are there, so that none is made (`makeDirectories_parent`).
-/

namespace SymbolGraph

/-! ## The place that is written -/

namespace Directory

theorem lookup?_cons {m : Points} {d c : Directory} (hm : d.child? m = some (.dir c))
    (at_ : List Points) (n : Points) : d.lookup? (m :: at_) n = c.lookup? at_ n := by
  rw [lookup?, descend?, hm]
  rfl

theorem exists_child?_of_lookup? {m n : Points} {at_ : List Points} {d : Directory} {e : Entry}
    (he : d.lookup? (m :: at_) n = some e) :
    ∃ c : Directory, d.child? m = some (.dir c) ∧ c.lookup? at_ n = some e := by
  rw [lookup?, descend?] at he
  split at he
  · next c hm => exact ⟨c, hm, he⟩
  · cases he

theorem putAt_cons {m : Points} {d c : Directory} (hm : d.child? m = some (.dir c))
    (name : Points) (e : Entry) (ns : List Points) :
    d.putAt name e (m :: ns) = d.put m (.dir (c.putAt name e ns)) := by
  rw [putAt, hm]

/-- What is put in the place of an entry is found there. -/
theorem lookup?_putAt_self {directory : List Points} {name : Points} {d : Directory}
    {old : Entry} (hold : d.lookup? directory name = some old) (e : Entry) :
    (d.putAt name e directory).lookup? directory name = some e := by
  induction directory generalizing d with
  | nil => exact (child?_put name name e d).trans (if_pos rfl)
  | cons m ns ih =>
      obtain ⟨c, hm, hinner⟩ := exists_child?_of_lookup? hold
      rw [putAt_cons hm, lookup?_cons ((child?_put m m _ d).trans (if_pos rfl))]
      exact ih hinner

/-- What is at another place stays there when a file takes the place of a file, but for what is
in the directories above the file. -/
theorem lookup?_putAt {directory at_ : List Points} {name n : Points} {d : Directory}
    {old new : List UInt8} {e : Entry} (hold : d.lookup? directory name = some (.file old))
    (he : d.lookup? at_ n = some e) (hother : at_ ++ [n] ≠ directory ++ [name]) :
    ∃ e', (d.putAt name (.file new) directory).lookup? at_ n = some e' ∧
      (e' = e ∨ ∃ c c', e = .dir c ∧ e' = .dir c') := by
  induction directory generalizing d at_ with
  | nil =>
      cases at_ with
      | nil =>
          have hn : n ≠ name := fun hn => hother (by rw [hn])
          exact ⟨e, (child?_put name n _ d).trans ((if_neg hn).trans he), Or.inl rfl⟩
      | cons m ms =>
          obtain ⟨c, hm, he⟩ := exists_child?_of_lookup? he
          -- the place holds a file, so it is no part of the way
          have hmn : m ≠ name := by
            rintro rfl
            cases Option.some.inj (hm.symm.trans hold)
          refine ⟨e, ?_, Or.inl rfl⟩
          rw [putAt, lookup?_cons ((child?_put name m _ d).trans ((if_neg hmn).trans hm))]
          exact he
  | cons k ns ih =>
      obtain ⟨c, hk, hinner⟩ := exists_child?_of_lookup? hold
      rw [putAt_cons hk]
      cases at_ with
      | nil =>
          by_cases hn : n = k
          · subst hn
            exact ⟨_, (child?_put n n _ d).trans (if_pos rfl),
              Or.inr ⟨c, _, Option.some.inj (he.symm.trans hk), rfl⟩⟩
          · exact ⟨e, (child?_put k n _ d).trans ((if_neg hn).trans he), Or.inl rfl⟩
      | cons m ms =>
          obtain ⟨c', hm, he⟩ := exists_child?_of_lookup? he
          by_cases hmk : m = k
          · subst hmk
            obtain rfl : c = c' := Entry.dir.inj (Option.some.inj (hk.symm.trans hm))
            rw [lookup?_cons ((child?_put m m _ d).trans (if_pos rfl))]
            exact ih hinner he fun heq => hother (congrArg (m :: ·) heq)
          · rw [lookup?_cons ((child?_put k m _ d).trans ((if_neg hmk).trans hm))]
            exact ⟨e, he, Or.inl rfl⟩

/-- One entry is at a place. -/
theorem lookup?_of_place_eq {directory at_ : List Points} {name n : Points}
    (hplace : at_ ++ [n] = directory ++ [name]) (d : Directory) :
    d.lookup? at_ n = d.lookup? directory name := by
  obtain ⟨rfl, hname⟩ := List.append_inj' hplace rfl
  rw [List.singleton_inj.mp hname]

/-- An entry that is no file is not where a file is. -/
theorem ne_of_lookup? {directory at_ : List Points} {name n : Points} {d : Directory}
    {old : List UInt8} {e : Entry} (hold : d.lookup? directory name = some (.file old))
    (he : d.lookup? at_ n = some e) (hfile : e ≠ .file old) :
    at_ ++ [n] ≠ directory ++ [name] := by
  intro hplace
  rw [lookup?_of_place_eq hplace] at he
  exact hfile (Option.some.inj (he.symm.trans hold))

end Directory

/-- What a stretch to a file or to a link becomes when the file at a place is written. -/
inductive Stretch.Rewritten (place : List Points) (new : List UInt8) : Stretch → Stretch → Prop
  | link {there rest : List Points} {target : Points} :
      Rewritten place new (.link there target rest) (.link there target rest)
  | file {found : List Points} {bytes : List UInt8} :
      Rewritten place new (.arrived (.taken found (.file bytes)))
        (.arrived (.taken found (.file (if found = place then new else bytes))))

namespace FileTree

section

variable {t : FileTree} {directory : List Points} {name : Points} {old new : List UInt8}
  (hold : t.top.lookup? directory name = some (.file old))
include hold

/-- Names lead as before when the file is written. -/
theorem Leads.put {at_ names : List Points} {s s' : Stretch} (hs : Leads t .look at_ names s)
    (hrewritten : s.Rewritten (directory ++ [name]) new s') :
    Leads (t.put directory name (.file new)) .look at_ names s' := by
  induction hs with
  | arrive => cases hrewritten
  | stay hstay _ ih => exact .stay hstay (ih hrewritten)
  | up _ ih => exact .up (ih hrewritten)
  | free => cases hrewritten
  | @file at_ n bytes hn hfile =>
      cases hrewritten
      refine .file hn ?_
      by_cases hplace : at_ ++ [n] = directory ++ [name]
      · rw [if_pos hplace, Directory.lookup?_of_place_eq hplace]
        exact Directory.lookup?_putAt_self hold _
      · obtain ⟨e', he', rfl | ⟨c, c', hdir, -⟩⟩ := Directory.lookup?_putAt hold hfile hplace
        · rw [if_neg hplace]
          exact he'
        · cases hdir
  | into hn hdir _ ih =>
      have hother := Directory.ne_of_lookup? hold hdir nofun
      obtain ⟨e', he', rfl | ⟨-, c', -, rfl⟩⟩ := Directory.lookup?_putAt hold hdir hother
      · exact .into hn he' (ih hrewritten)
      · exact .into hn he' (ih hrewritten)
  | entry _ hlook => cases hlook
  | link hn hrest hlink =>
      cases hrewritten
      have hother := Directory.ne_of_lookup? hold hlink nofun
      obtain ⟨e', he', rfl | ⟨c, c', hdir, -⟩⟩ := Directory.lookup?_putAt hold hlink hother
      · exact .link hn hrest he'
      · cases hdir

theorem Reaches.put {links : Nat} {at_ names found : List Points} {bytes : List UInt8}
    (hreaches : Reaches t .look links at_ names (.taken found (.file bytes))) :
    Reaches (t.put directory name (.file new)) .look links at_ names
      (.taken found (.file (if found = directory ++ [name] then new else bytes))) := by
  generalize hplace : Place.taken found (.file bytes) = place at hreaches
  induction hreaches with
  | arrive hs =>
      subst hplace
      exact .arrive (hs.put hold .file)
  | link hs _ ih => exact .link (hs.put hold .link) (ih hplace)

end

/-! ## Reading and writing -/

/-- Where the names of a path are followed from. -/
def start (t : FileTree) (p : Path) : List Points := if p.absolute then [] else t.cwd

/-- The path has no null character and is not too long. -/
def Allows (p : Path) : Prop :=
  p.written.contains nullPoint = false ∧ p.written.toBytes.length ≤ maxPathBytes

theorem locate_eq_ok_iff {t : FileTree} {p : Path} {aim : Aim} {place : Place} :
    t.locate p aim = .ok place ↔ Allows p ∧
    Reaches t aim maxLinks (t.start p) p.names place := by
  rw [← follow_eq_ok_iff, locate, Allows]
  cases p.written.contains nullPoint with
  | true => simp
  | false =>
      by_cases hshort : p.written.toBytes.length ≤ maxPathBytes
      · simp [hshort, Nat.not_lt.mpr hshort, start]
      · simp [hshort, Nat.lt_of_not_le hshort]

theorem read_eq_ok_iff {t : FileTree} {p : Path} {bytes : List UInt8} :
    t.read p = .ok bytes ↔ ∃ found, t.locate p .look = .ok (.taken found (.file bytes)) ∧
      t.closed.contains found = false := by
  rw [read]
  cases t.locate p .look with
  | error cause => simp
  | ok place =>
      cases place with
      | free directory name => simp
      | taken found e =>
          cases e with
          | file held => by_cases hclosed : found ∈ t.closed <;> simp [hclosed, and_assoc]
          | dir d => simp
          | link target => simp

/-- The file at a place holds the bytes in the other tree, and all other files hold what they
held. The same files may be read. -/
structure Rewrites (t t' : FileTree) (place : List Points) (new : List UInt8) : Prop where
  locate : ∀ q found bytes, t.locate q .look = .ok (.taken found (.file bytes)) →
    t'.locate q .look = .ok (.taken found (.file (if found = place then new else bytes)))
  closed : t'.closed = t.closed

theorem Rewrites.trans {t t' t'' : FileTree} {place : List Points} {new newer : List UInt8}
    (h : Rewrites t t' place new) (h' : Rewrites t' t'' place newer) :
    Rewrites t t'' place newer := by
  refine ⟨fun q found bytes hlocate => ?_, h'.closed.trans h.closed⟩
  have hlater := h'.locate q found _ (h.locate q found bytes hlocate)
  by_cases hfound : found = place
  · rw [if_pos hfound] at hlater ⊢
    exact hlater
  · rw [if_neg hfound, if_neg hfound] at hlater
    rw [if_neg hfound]
    exact hlater

/-- One file is at a place. -/
theorem bytes_eq_of_place {t : FileTree} {p q : Path} {place : List Points}
    {bytes other : List UInt8} (hp : t.locate p .look = .ok (.taken place (.file bytes)))
    (hq : t.locate q .look = .ok (.taken place (.file other))) : other = bytes := by
  obtain ⟨directory, name, rfl, hbytes⟩ := (locate_eq_ok_iff.mp hp).2.exists_lookup?
  obtain ⟨directory', name', hplace, hother⟩ := (locate_eq_ok_iff.mp hq).2.exists_lookup?
  rw [Directory.lookup?_of_place_eq hplace] at hbytes
  exact Entry.file.inj (Option.some.inj (hother.symm.trans hbytes))

namespace Rewrites

variable {t t' : FileTree} {p : Path} {place : List Points} {bytes new : List UInt8}
  (hrewrites : Rewrites t t' place new)
  (hlocate : t.locate p .look = .ok (.taken place (.file bytes)))
include hrewrites hlocate

theorem read_self (hopen : t.closed.contains place = false) : t'.read p = .ok new := by
  have hnew := hrewrites.locate p place bytes hlocate
  rw [if_pos rfl] at hnew
  exact read_eq_ok_iff.mpr ⟨place, hnew, hrewrites.closed ▸ hopen⟩

theorem read_other {q : Path} {other : List UInt8} (hread : t.read q = .ok other)
    (hne : t.locate q .look ≠ t.locate p .look) : t'.read q = .ok other := by
  obtain ⟨found, hq, hopen⟩ := read_eq_ok_iff.mp hread
  have hfound : found ≠ place := by
    rintro rfl
    obtain rfl := bytes_eq_of_place hlocate hq
    exact hne (hq.trans hlocate.symm)
  have hsame := hrewrites.locate q found other hq
  rw [if_neg hfound] at hsame
  exact read_eq_ok_iff.mpr ⟨found, hsame, hrewrites.closed ▸ hopen⟩

end Rewrites

/-- A file that is there can be written. -/
theorem exists_write {t : FileTree} {p : Path} {place : List Points} {old : List UInt8}
    (hlocate : t.locate p .look = .ok (.taken place (.file old))) (new : List UInt8) :
    ∃ t', t.write p new = .ok t' ∧ Rewrites t t' place new := by
  obtain ⟨hallows, hreaches⟩ := locate_eq_ok_iff.mp hlocate
  obtain ⟨directory, name, rfl, hold⟩ := hreaches.exists_lookup?
  have hwrite : t.locate p .write = .ok (.taken (directory ++ [name]) (.file old)) :=
    locate_eq_ok_iff.mpr ⟨hallows, hreaches.write⟩
  refine ⟨t.put directory name (.file new), ?_, fun q found bytes hq => ?_, rfl⟩
  · have hplace : t.writable p = .ok ⟨directory, name⟩ := by simp [writable, hwrite]
    rw [write, hplace]
    rfl
  · obtain ⟨hallowed, hfound⟩ := locate_eq_ok_iff.mp hq
    exact locate_eq_ok_iff.mpr ⟨hallowed, hfound.put hold⟩

/-! ## The directories above a file -/

/-- Some parts of a joined text are where it starts. -/
theorem join_isPrefix_concat (glue : Points) (parts : List Points) (part : Points) :
    Text.join glue parts <+: Text.join glue (parts ++ [part]) := by
  induction parts with
  | nil => exact List.nil_prefix
  | cons m ms ih =>
      cases ms with
      | nil => exact ⟨glue ++ part, (List.append_assoc m glue part).symm⟩
      | cons k ks => exact (List.prefix_append_right_inj (m ++ glue)).mpr ih

/-- A path without its last name is where the path starts, or names the working directory. -/
theorem Allows.parent {p : Path} {ns : List Points} {n : Points} (hnames : p.names = ns ++ [n])
    (hallows : Allows p) : Allows p.parent := by
  have hparent : p.parent.written <+: p.written ∨ p.parent.written = Path.here := by
    simp only [Path.parent, Path.written, hnames, List.dropLast_concat]
    have hjoin := join_isPrefix_concat [Path.slash] ns n
    by_cases habsolute : p.absolute = true
    · simp [habsolute, hjoin]
    · by_cases hns : ns = []
      · simp [habsolute, hns]
      · simp [habsolute, hns, hjoin]
  rcases hparent with ⟨rest, hrest⟩ | hhere
  · obtain ⟨hnull, hshort⟩ := hallows
    rw [← hrest] at hnull hshort
    rw [List.contains_append, Bool.or_eq_false_iff] at hnull
    rw [Points.toBytes, List.flatMap_append, List.length_append] at hshort
    exact ⟨hnull.1, Nat.le_trans (Nat.le_add_right _ _) hshort⟩
  · rw [Allows, hhere]
    decide

/-- Where there is a directory, none is made. -/
theorem makeDirectories_of_taken {t : FileTree} {q : Path} {found above : List Points}
    {d : Directory} {e : Entry} (hlook : t.locate q .look = .ok (.taken found (.dir d)))
    (hentry : t.locate q .entry = .ok (.taken above e)) : t.makeDirectories q = (t, none) := by
  have hmake : t.makeDirectory q = .error ⟨.taken, q⟩ := by rw [makeDirectory, hentry]
  have hfind : t.find? q = .ok (some (.dir d)) := by
    rw [find?, find, hlook]
    rfl
  have hallow : t.allowExisting q (.error ⟨.taken, q⟩) = (t, none) := by
    unfold allowExisting
    rw [hfind]
  have hpath : q = ⟨q.absolute, q.names.reverse.reverse⟩ := by rw [List.reverse_reverse]
  unfold makeDirectories
  generalize q.names.reverse = names at hpath
  cases names with
  | nil =>
      rw [List.reverse_nil] at hpath
      rw [makeReversed, ← hpath, hmake]
      exact hallow
  | cons n names =>
      rw [makeReversed, ← hpath, hmake]
      exact hallow

/-- The directories above a file that is there need not be made. -/
theorem makeDirectories_parent {t : FileTree} {p : Path} {place : List Points}
    {bytes : List UInt8} (hlocate : t.locate p .look = .ok (.taken place (.file bytes))) :
    t.makeDirectories p.parent = (t, none) := by
  obtain ⟨hallows, hreaches⟩ := locate_eq_ok_iff.mp hlocate
  have hne : p.names ≠ [] := by
    intro hnil
    rw [hnil] at hreaches
    cases hreaches with
    | arrive hs => cases hs
    | link hs => cases hs
  have hnames : p.names = p.names.dropLast ++ [p.names.getLast hne] :=
    (List.dropLast_concat_getLast hne).symm
  rw [hnames] at hreaches
  have hlook : Aim.look ≠ .write := by decide
  have hentry : Aim.entry ≠ .write := by decide
  obtain ⟨above, e, hdir, he⟩ := hreaches.above hlook (List.forall_mem_nil _)
  obtain ⟨d, rfl⟩ := he rfl
  obtain ⟨above', e', hthere, -⟩ := hreaches.above hentry (List.forall_mem_nil _)
  rw [List.append_nil] at hdir hthere
  have hparent := hallows.parent hnames
  exact makeDirectories_of_taken (locate_eq_ok_iff.mpr ⟨hparent, hdir⟩)
    (locate_eq_ok_iff.mpr ⟨hparent, hthere⟩)

end FileTree

end SymbolGraph
