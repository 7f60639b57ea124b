import Mathlib.Data.List.TakeWhile
import SymbolGraph.Proofs.Assoc
import SymbolGraph.Proofs.Draft.Lookup
import SymbolGraph.Proofs.Draft.Tally
import SymbolGraph.Record.Agreement
set_option autoImplicit false

/-!
# Sessions with a draft

A draft can be worked on from outside: it is built anew from outlines, nodes and references are
put in one at a time, and names are resolved by themselves. Whatever the requests are and in
whichever order they come, the tables give identifiers of nodes, no identifier has two nodes,
and every reference that is counted at all is counted at least once (`Sound`). Resolving a name
changes no other node than the one that it gives, and resolving it again changes nothing,
although the node may be one from outside that the placeholder was merged into: what a node
takes from another it takes once (`merge_merge`).
-/

namespace SymbolGraph

open Draft

/-! ## Merging twice -/

namespace Assoc

variable {κ α : Type} [DecidableEq κ]

/-- Pairs whose keys are all there change nothing. -/
theorem putAllNew_of_contains {table pairs : List (κ × α)}
    (hkeys : ∀ p ∈ pairs, contains p.1 table = true) : putAllNew table pairs = table := by
  induction pairs with
  | nil => rfl
  | cons p pairs ih =>
      have hput : putNew p.1 p.2 table = table := if_pos (hkeys p List.mem_cons_self)
      rw [putAllNew, List.foldl_cons, hput]
      exact ih fun q hq => hkeys q (List.mem_cons_of_mem p hq)

theorem contains_putNew {k : κ} {table : List (κ × α)} (k' : κ) (v : α)
    (hk : contains k table = true ∨ k' = k) : contains k (putNew k' v table) = true := by
  rw [contains, get?_putNew, Option.isSome_or, Bool.or_eq_true]
  refine hk.imp id fun heq => ?_
  rw [if_pos heq]
  rfl

theorem contains_putAllNew {k : κ} {table : List (κ × α)} (pairs : List (κ × α))
    (hk : contains k table = true ∨ k ∈ pairs.map Prod.fst) :
    contains k (putAllNew table pairs) = true := by
  induction pairs generalizing table with
  | nil => exact hk.resolve_right List.not_mem_nil
  | cons p pairs ih =>
      refine ih ?_
      obtain htable | hpairs := hk
      · exact Or.inl (contains_putNew p.1 p.2 (Or.inl htable))
      · obtain heq | hlater := List.mem_cons.mp hpairs
        · exact Or.inl (contains_putNew p.1 p.2 (Or.inr heq.symm))
        · exact Or.inr hlater

/-- Pairs that were put where their keys were new are not put again. -/
theorem putAllNew_putAllNew (table pairs : List (κ × α)) :
    putAllNew (putAllNew table pairs) pairs = putAllNew table pairs :=
  putAllNew_of_contains fun _ hp =>
    contains_putAllNew pairs (Or.inr (List.mem_map_of_mem hp))

end Assoc

/-- A node is merged into another once: a second time changes nothing. -/
theorem merge_merge (old new : Node) : (old.merge new).merge new = old.merge new := by
  have hlabel : (if (if old.label = [] then new.label else old.label) = [] then new.label
      else if old.label = [] then new.label else old.label) =
      if old.label = [] then new.label else old.label := by
    by_cases hold : old.label = [] <;> simp [hold]
  have hline : (old.line.or new.line).or new.line = old.line.or new.line := by
    cases old.line <;> simp
  simp only [Node.merge, hline, Assoc.putAllNew_putAllNew, Node.mk.injEq, true_and, and_true]
  refine ⟨hlabel, ?_⟩
  -- a path that is missing or empty is replaced by the new one, also if that is empty itself
  rcases old.filePath with _ | (_ | ⟨c, path⟩)
  · rcases new.filePath with _ | (_ | ⟨c, path⟩) <;> rfl
  · rcases new.filePath with _ | (_ | ⟨c, path⟩) <;> rfl
  · rfl

/-- A node is merged into itself without a change. -/
theorem merge_self (n : Node) : n.merge n = n := by
  have hmetadata : Assoc.putAllNew n.metadata n.metadata = n.metadata :=
    Assoc.putAllNew_of_contains fun p hp => Assoc.contains_iff.mpr (List.mem_map_of_mem hp)
  obtain ⟨id, label, kind, filePath, line, metadata⟩ := n
  simp only at hmetadata
  rcases filePath with _ | (_ | ⟨c, path⟩) <;> simp [Node.merge, hmetadata]

theorem insertNode_insertNode (n : Node) (ns : List Node) :
    insertNode n (insertNode n ns) = insertNode n ns := by
  induction ns with
  | nil => simp [insertNode, merge_self]
  | cons m ms ih =>
      by_cases hm : m.id = n.id
      · rw [insertNode, if_pos hm, insertNode, if_pos ((id_merge m n).trans hm), merge_merge]
      · rw [insertNode, if_neg hm, insertNode, if_neg hm, ih]

/-! ## Requests -/

/-- A name that is used: what is called in a module, within a class or not, or a base class. -/
inductive NameUse
  | call (scope name : Text) (within : Option Text) (aliases : List (Text × Text))
  | base (scope name : Text)
  deriving DecidableEq, Repr

/-- What the tables give for a name. -/
def NameUse.target (names : Names) : NameUse → Target
  | call scope name within aliases => names.callTarget scope name within aliases
  | base scope name => names.baseTarget scope name

/-- What can be asked of a draft from outside. -/
inductive Request
  /-- The draft is built anew. -/
  | build (os : List Outline)
  /-- A node is put in. -/
  | insert (n : Node)
  /-- A reference is counted. -/
  | refer (l : Link)
  /-- A name is resolved. -/
  | resolve (u : NameUse)

/-- The changes that a request makes, by the tables of names. -/
def Request.changes (names : Names) : Request → List Change
  | build os => buildChanges os
  | insert n => [.insert n]
  | refer l => [.refer l]
  | resolve u => targetChanges (u.target names)

namespace Draft

/-- What a name stands for, and the draft with the node that it needs. -/
def resolve (d : Draft) (u : NameUse) : Target × Draft :=
  let t := u.target d.toNames
  (t, d.bind t)

/-- A draft after a request. -/
def perform (d : Draft) : Request → Draft
  | .build os => build os
  | .insert n => d.insert n
  | .refer l => d.refer l.source l.relation l.target
  | .resolve u => (d.resolve u).2

/-- The draft after requests, one after the other. -/
def session (rs : List Request) : Draft := rs.foldl perform {}

/-- The draft that a request starts from. -/
def startOf (d : Draft) : Request → Draft
  | .build _ => {}
  | _ => d

theorem bind_eq_replay (d : Draft) (t : Target) : d.bind t = d.replay (targetChanges t) := by
  cases t <;> rfl

/-- A request is the replay of its changes. -/
theorem perform_eq_replay (d : Draft) (r : Request) :
    d.perform r = (d.startOf r).replay (r.changes d.toNames) := by
  cases r with
  | build os => exact build_eq_replay os
  | insert n => rfl
  | refer l => rfl
  | resolve u => exact bind_eq_replay d (u.target d.toNames)

/-! ## What every request keeps -/

/-- The tables give identifiers of nodes, no identifier has two nodes, and what is counted is
counted at least once. -/
structure Sound (d : Draft) : Prop where
  named : ∀ id ∈ d.toNames.ids, id ∈ d.ids
  distinct : d.ids.Nodup
  counted : ∀ entry ∈ d.weights, 1 ≤ entry.2

theorem sound_empty : ({} : Draft).Sound :=
  ⟨fun _ hid => absurd hid List.not_mem_nil, List.nodup_nil,
    fun _ h => absurd h List.not_mem_nil⟩

theorem counted_countLink {weights : List (Link × Nat)}
    (hweights : ∀ entry ∈ weights, 1 ≤ entry.2) (l : Link) :
    ∀ entry ∈ countLink l weights, 1 ≤ entry.2 := by
  induction weights with
  | nil =>
      intro entry hentry
      obtain rfl := List.mem_singleton.mp hentry
      exact Nat.le_refl 1
  | cons first rest ih =>
      have hrest := ih fun entry hentry => hweights entry (List.mem_cons_of_mem first hentry)
      intro entry hentry
      rw [countLink] at hentry
      split at hentry
      · obtain rfl | hentry := List.mem_cons.mp hentry
        · exact Nat.succ_pos _
        · exact hweights entry (List.mem_cons_of_mem first hentry)
      · obtain rfl | hentry := List.mem_cons.mp hentry
        · exact hweights _ List.mem_cons_self
        · exact hrest entry hentry

theorem counted_apply {d : Draft} (hd : ∀ entry ∈ d.weights, 1 ≤ entry.2) (c : Change) :
    ∀ entry ∈ (d.apply c).weights, 1 ≤ entry.2 := by
  cases c with
  | refer l => exact counted_countLink hd l
  | insert n => exact hd
  | note o => exact hd
  | nameFunction scope name id => exact hd
  | nameClass scope name id => exact hd
  | nameMethod scope className name id => exact hd

/-- Building leaves the tables as all declarations filled them. -/
theorem toNames_build (os : List Outline) : (build os).toNames = declaredNames os := by
  have hlinked := Follows.foldl Follows.link os
  rw [build, hlinked.eq_replay, toNames_replay (hlinked.keepsNames _)]
  rfl

/-- The requests that do not build leave the tables as they are. -/
theorem named_replay {d : Draft} (hd : ∀ id ∈ d.toNames.ids, id ∈ d.ids) {cs : List Change}
    (hcs : KeepsNames cs) : ∀ id ∈ (d.replay cs).toNames.ids, id ∈ (d.replay cs).ids := by
  intro id hid
  rw [toNames_replay hcs] at hid
  exact (mem_ids_replay id d cs).mpr (Or.inl (hd id hid))

theorem named_perform {d : Draft} (hd : ∀ id ∈ d.toNames.ids, id ∈ d.ids) (r : Request) :
    ∀ id ∈ (d.perform r).toNames.ids, id ∈ (d.perform r).ids := by
  cases r with
  | build os =>
      intro id hid
      rw [perform, toNames_build] at hid
      obtain ⟨n, hn, rfl⟩ := List.mem_map.mp (declared_of_mem_namesIds hid)
      exact (mem_ids_build n.id os).mpr (List.mem_map_of_mem (List.mem_append_left _ hn))
  | insert n =>
      have hkeeps : KeepsNames [.insert n] := by simp [KeepsNames, Change.named?]
      exact named_replay hd hkeeps
  | refer l =>
      have hkeeps : KeepsNames [.refer l] := by simp [KeepsNames, Change.named?]
      exact named_replay hd hkeeps
  | resolve u =>
      have hbind := Follows.bind_target fun names => u.target names
      rw [perform, resolve, bind_eq_replay]
      exact named_replay hd (hbind.keepsNames d.toNames)

theorem Sound.startOf {d : Draft} (hd : d.Sound) (r : Request) : (d.startOf r).Sound := by
  cases r with
  | build os => exact sound_empty
  | insert n => exact hd
  | refer l => exact hd
  | resolve u => exact hd

/-- Every request keeps a draft sound. -/
theorem Sound.perform {d : Draft} (hd : d.Sound) (r : Request) : (d.perform r).Sound := by
  refine ⟨named_perform hd.named r, ?_, ?_⟩
  · rw [perform_eq_replay]
    exact replay_induction (P := fun d => d.ids.Nodup) (hd.startOf r).distinct
      fun d c _ hd => nodup_ids_apply hd c
  · rw [perform_eq_replay]
    exact replay_induction (P := fun d => ∀ entry ∈ d.weights, 1 ≤ entry.2)
      (hd.startOf r).counted
      fun d c _ hd => counted_apply hd c

/-- Every session leaves a sound draft. -/
theorem sound_session (rs : List Request) : (session rs).Sound := by
  have hrun : ∀ (rs : List Request) (d : Draft), d.Sound → (rs.foldl perform d).Sound := by
    intro rs
    induction rs with
    | nil => exact fun d hd => hd
    | cons r rs ih => exact fun d hd => ih (d.perform r) (hd.perform r)
  exact hrun rs {} sound_empty

/-! ## Resolving a name -/

theorem toNames_bind (d : Draft) (t : Target) : (d.bind t).toNames = d.toNames := by
  cases t <;> rfl

theorem weights_bind (d : Draft) (t : Target) : (d.bind t).weights = d.weights := by
  cases t <;> rfl

theorem bind_bind (d : Draft) (t : Target) : (d.bind t).bind t = d.bind t := by
  cases t with
  | declared id => rfl
  | external kind name =>
      rw [bind, bind, Draft.insert, Draft.insert, insertNode_insertNode]

/-- Binding a target changes no other node. -/
theorem node?_bind {d : Draft} {t : Target} {id : Text} (hid : id ≠ t.id) :
    (d.bind t).node? id = d.node? id := by
  cases t with
  | declared id' => rfl
  | external kind name =>
      rw [bind, node?_insert]
      exact if_neg (Ne.symm hid)

/-- What the tables of a sound draft give is a node once it is bound. -/
theorem Sound.mem_ids_bind {d : Draft} (hd : d.Sound) (u : NameUse) :
    (u.target d.toNames).id ∈ (d.bind (u.target d.toNames)).ids := by
  cases htarget : u.target d.toNames with
  | declared id =>
      refine hd.named id ?_
      cases u with
      | call scope name within aliases => exact Names.mem_ids_of_callTarget htarget
      | base scope name => exact Names.mem_ids_of_baseTarget htarget
  | external kind name =>
      exact (mem_ids_apply _ d (.insert (externalNode kind name))).mpr (Or.inr ⟨_, rfl, rfl⟩)

end Draft

/-! ## Nodes in a table by identifier -/

/-- Nodes in a table whose keys are kept apart from them. -/
abbrev NodeTable := List (Text × Node)

namespace NodeTable

/-- What becomes of the node under a key. -/
def update (t : NodeTable) (k : Text) (f : Option Node → Option Node) : NodeTable :=
  match f (Assoc.get? k t) with
  | some n => Assoc.put k n t
  | none => t

/-- A table after a change: a node is put in under its own identifier, merged into the one that
is there, and aliases are noted on the node under the module's identifier. -/
def apply (t : NodeTable) : Change → NodeTable
  | .insert n => t.update n.id fun old => mergeInto old n
  | .note o => t.update (moduleId o.moduleName) fun old => old.map (·.noting o.aliases)
  | _ => t

/-- The table that a request starts from. -/
def startOf (t : NodeTable) : Request → NodeTable
  | .build _ => []
  | _ => t

/-- A table after requests, where the draft tells what names stand for. -/
def session : Draft → NodeTable → List Request → NodeTable
  | _, t, [] => t
  | d, t, r :: rs => session (d.perform r) ((r.changes d.toNames).foldl apply (t.startOf r)) rs

/-- The nodes of a draft in a table, each under its identifier. -/
def ofNodes (ns : List Node) : NodeTable := ns.map fun n => (n.id, n)

theorem update_cons (k k' : Text) (n : Node) (t : NodeTable) (f : Option Node → Option Node) :
    update ((k', n) :: t) k f =
      if k' = k then (k', (f (some n)).getD n) :: t else (k', n) :: update t k f := by
  by_cases hk : k' = k
  · rw [update, Assoc.get?, if_pos hk, if_pos hk]
    cases hf : f (some n) with
    | none => rfl
    | some m => simp [Assoc.put, hk]
  · rw [update, Assoc.get?, if_neg hk, if_neg hk, update]
    cases hf : f (Assoc.get? k t) with
    | none => rfl
    | some m => simp [Assoc.put, hk]

theorem update_insert (n : Node) (ns : List Node) :
    (ofNodes ns).update n.id (mergeInto · n) = ofNodes (insertNode n ns) := by
  induction ns with
  | nil => rfl
  | cons m ms ih =>
      rw [ofNodes, List.map_cons, update_cons, ← ofNodes, ih, insertNode]
      by_cases hm : m.id = n.id
      · rw [if_pos hm, if_pos hm]
        rfl
      · rw [if_neg hm, if_neg hm]
        rfl

theorem update_note {ns : List Node} (hns : (ns.map Node.id).Nodup) (o : Outline) :
    (ofNodes ns).update (moduleId o.moduleName) (·.map (·.noting o.aliases)) =
      ofNodes (ns.map fun n => if n.id =
        moduleId o.moduleName then n.noting o.aliases else n) := by
  induction ns with
  | nil => rfl
  | cons n ns ih =>
      rw [List.map_cons, List.nodup_cons] at hns
      rw [ofNodes, List.map_cons, update_cons, ← ofNodes, ih hns.2, List.map_cons]
      by_cases hn : n.id = moduleId o.moduleName
      · -- the module's node is the only one with its identifier
        have hothers : (ns.map fun m => if m.id = moduleId o.moduleName then m.noting o.aliases
            else m) = ns := by
          refine (List.map_congr_left fun m hm => if_neg fun heq => hns.1 ?_).trans
            (List.map_id' ns)
          exact (hn.trans heq.symm) ▸ List.mem_map_of_mem hm
        rw [if_pos hn, if_pos hn, hothers]
        rfl
      · rw [if_neg hn, if_neg hn]
        rfl

/-- A change does to the table of a draft's nodes what it does to the nodes. -/
theorem apply_ofNodes {d : Draft} (hd : d.ids.Nodup) (c : Change) :
    (ofNodes d.nodes).apply c = ofNodes (d.apply c).nodes := by
  cases c with
  | insert n => exact update_insert n d.nodes
  | note o => exact update_note hd o
  | nameFunction scope name id => rfl
  | nameClass scope name id => rfl
  | nameMethod scope className name id => rfl
  | refer l => rfl

theorem foldl_apply_ofNodes (cs : List Change) {d : Draft} (hd : d.ids.Nodup) :
    cs.foldl apply (ofNodes d.nodes) = ofNodes (d.replay cs).nodes := by
  induction cs generalizing d with
  | nil => rfl
  | cons c cs ih =>
      rw [List.foldl_cons, apply_ofNodes hd, replay_cons]
      exact ih (nodup_ids_apply hd c)

/-- In the table that a session leaves every node stands under its own identifier. -/
theorem session_eq (rs : List Request) {d : Draft} (hd : d.Sound) :
    session d (ofNodes d.nodes) rs = ofNodes (rs.foldl perform d).nodes := by
  induction rs generalizing d with
  | nil => rfl
  | cons r rs ih =>
      have hstart : (ofNodes d.nodes).startOf r = ofNodes (d.startOf r).nodes := by
        cases r <;> rfl
      rw [List.foldl_cons, session, hstart, foldl_apply_ofNodes _ (hd.startOf r).distinct,
        ← perform_eq_replay]
      exact ih (hd.perform r)

end NodeTable

/-! ## Requests as they are exchanged -/

/-- The names that imports bind, as an object. -/
def aliasObject (aliases : List (Text × Text)) : Json :=
  .obj (aliases.map fun (k, v) => (k.points, .text v))

namespace DraftRecord

/-- What a name given as exchanged values stands for. -/
def target (d : DraftRecord) : NameUse → Except RecordFault Target
  | .call scope name within aliases =>
    d.resolveCall (.text scope) (.text name) (Json.ofText? within) (aliasObject aliases)
  | .base scope name => d.resolveBase (.text scope) (.text name)

/-- What a name stands for, and the draft of exchanged values with the node that it needs. -/
def resolve (d : DraftRecord) (u : NameUse) : Except RecordFault (Target × DraftRecord) := do
  let t ← d.target u
  return (t, d.bind t)

/-- A draft of exchanged values after a request, whose parts are exchanged too. -/
def perform (d : DraftRecord) : Request → Except RecordFault DraftRecord
  | .build os => DraftRecord.build (os.map Outline.record)
  | .insert n => d.insert n.record
  | .refer l => d.refer (.text l.source) l.relation (.text l.target)
  | .resolve u => do
    let (_, d) ← d.resolve u
    return d

end DraftRecord

theorem text?_ofText? (t : Option Text) : (Json.ofText? t).text? = t := by
  cases t with
  | none => rfl
  | some t => exact Json.text?_text t

theorem isKey_ofText? (t : Option Text) : (Json.ofText? t).isKey = true := by
  cases t <;> rfl

theorem get?_aliasObject (k : Text) (aliases : List (Text × Text)) :
    Assoc.get? k.points (aliases.map fun (k, v) => (k.points, Json.text v)) =
      (Assoc.get? k aliases).map Json.text := by
  induction aliases with
  | nil => rfl
  | cons p aliases ih =>
      obtain ⟨k', v⟩ := p
      by_cases hk : k' = k <;> simp [Assoc.get?, Points.points_inj, hk, ih]

theorem firstSegment_of_not_mem {name : Text} (hdot : '.' ∉ name) :
    Text.firstSegment name = name := by
  refine List.takeWhile_eq_self_iff.mpr fun c hc => decide_eq_true ?_
  rintro rfl
  exact hdot hc

/-- Aliases tell only what a name outside is called, and nothing of a call on `self` or
`cls`. -/
theorem callTarget_aliases (names : Names) (scope name : Text) (within : Option Text)
    (aliases : List (Text × Text)) :
    names.callTarget scope name within aliases =
      if '.' ∈ name ∧ Text.firstSegment name ∈ selfNames
        then names.callTarget scope name within []
      else match names.callTarget scope name within [] with
        | .declared id => .declared id
        | .external kind other =>
          .external kind ((Assoc.get? (Text.firstSegment name) aliases).getD other) := by
  unfold Names.callTarget
  by_cases hdot : '.' ∈ name
  · by_cases hself : Text.firstSegment name ∈ selfNames
    · simp [hdot, hself, Names.dottedTarget]
    · simp only [hdot, hself, if_true, if_false, and_false, Names.dottedTarget]
      split <;> simp
  · simp only [hdot, if_false, false_and, Names.bareTarget, firstSegment_of_not_mem hdot]
    split <;> simp

namespace Draft

/-- A call of texts finds in the record of a draft what it finds in the draft. -/
theorem record_resolveCall (d : Draft) (scope name : Text) (within : Option Text)
    (aliases : List (Text × Text)) :
    d.record.resolveCall (.text scope) (.text name) (Json.ofText? within)
      (aliasObject aliases) =
      .ok (d.callTarget scope name within aliases) := by
  have hkey : (Json.text scope).isKey = true := rfl
  have hnames : d.record.toNames = d.toNames := rfl
  have hself : (decide ('.' ∈ name) && selfNames.contains (Text.firstSegment name)) = true ↔
      '.' ∈ name ∧ Text.firstSegment name ∈ selfNames := by
    simp
  rw [callTarget_aliases]
  simp only [DraftRecord.resolveCall, Json.text?_text, text?_ofText?, isKey_ofText?,
    hkey, hnames, Option.isSome_some, if_true, Option.getD_some, hself, aliasObject,
    get?_aliasObject]
  split
  · simp
  · cases htarget : d.callTarget scope name within [] with
    | declared id => rfl
    | external kind other =>
        cases halias : Assoc.get? (Text.firstSegment name) aliases with
        | none => simp
        | some source => simp [Json.name]

/-- A base class that is a text is in the record of a draft what it is in the draft. -/
theorem record_resolveBase (d : Draft) (scope name : Text) :
    d.record.resolveBase (.text scope) (.text name) = .ok (d.baseTarget scope name) := by
  have hkeys : ((Json.text scope).isKey && (Json.text name).isKey) = true := rfl
  simp only [DraftRecord.resolveBase, hkeys, Json.name, Json.text?_text]
  rfl

/-- A name is resolved in the record of a draft as it is in the draft. -/
theorem record_resolve (d : Draft) (u : NameUse) :
    d.record.resolve u = .ok ((d.resolve u).1, (d.resolve u).2.record) := by
  have htarget : d.record.target u = .ok (u.target d.toNames) := by
    cases u with
    | call scope name within aliases => exact record_resolveCall d scope name within aliases
    | base scope name => exact record_resolveBase d scope name
  rw [DraftRecord.resolve, htarget, ok_bind, record_bind]
  rfl

/-- A request changes the record of a draft as it changes the draft. -/
theorem record_perform (d : Draft) (r : Request) :
    d.record.perform r = .ok (d.perform r).record := by
  cases r with
  | build os => exact DraftRecord.build_record os
  | insert n => exact record_insert d n
  | refer l => exact record_refer d l.source l.relation l.target
  | resolve u =>
      rw [DraftRecord.perform, record_resolve]
      rfl

/-- A session with exchanged values goes as the session with drafts, without a fault. -/
theorem record_session (rs : List Request) :
    rs.foldlM DraftRecord.perform {} = .ok (session rs).record := by
  have hrun := foldlM_record id DraftRecord.perform perform record_perform rs {}
  rwa [List.map_id] at hrun

/-- Whatever was asked of a draft before, in exchanged values or not, it is sound and every node
stands in its table under the node's own identifier. Resolving any name then gives the
identifier of a node, by the tables of names alone; it leaves the tables, the counts and all
other nodes as they are, and when it is done again at once it gives the same and changes
nothing. -/
theorem session_sound_and_resolution_framed (rs : List Request) :
    let d := session rs
    rs.foldlM DraftRecord.perform {} = .ok d.record ∧
    d.Sound ∧
    NodeTable.session {} [] rs = NodeTable.ofNodes d.nodes ∧
    ∀ u : NameUse,
      d.record.resolve u = .ok ((d.resolve u).1, (d.resolve u).2.record) ∧
      (d.resolve u).1.id ∈ (d.resolve u).2.ids ∧
      (d.resolve u).2.weights = d.weights ∧
      (d.resolve u).2.toNames = d.toNames ∧
      (∀ id, id ≠ (d.resolve u).1.id → (d.resolve u).2.node? id = d.node? id) ∧
      (∀ e : Draft, e.toNames = d.toNames → (e.resolve u).1 = (d.resolve u).1) ∧
      (d.resolve u).2.resolve u = d.resolve u := by
  intro d
  have hsound : d.Sound := sound_session rs
  refine ⟨record_session rs, hsound, NodeTable.session_eq rs sound_empty, fun u => ?_⟩
  have hnames : (d.resolve u).2.toNames = d.toNames := toNames_bind d _
  refine ⟨record_resolve d u, hsound.mem_ids_bind u, weights_bind d _, hnames,
    fun id hid => node?_bind hid, fun e he => congrArg u.target he, ?_⟩
  have htarget : u.target (d.resolve u).2.toNames = u.target d.toNames :=
    congrArg u.target hnames
  rw [resolve, htarget]
  exact congrArg (Prod.mk _) (bind_bind d _)

end Draft

end SymbolGraph
