import Mathlib.Data.List.Forall2
import SymbolGraph.Proofs.Record.RoundTrip
set_option autoImplicit false

/-!
# Graphs are read up to the first fault

Which items of a graph can be read is told by a rule: the members that an item must have, in the
order in which they are looked for, and the words of which the last of them must be one
(`ItemRule`). Nodes and edges each have such a rule, and the two readers follow it in the same
way (`ItemRule.reads`). So reading a graph fails with the first fault of its first faulty node,
or of its first faulty edge when all nodes are good, whatever else is wrong behind that
(`reading_exact`). A graph without faults is read as its nodes and edges, each once, with what
is missing filled in, in a stable order.
-/

namespace SymbolGraph

open Json

/-- The member of an object with a key. -/
def Json.at? (key : String) (fs : Fields) : Option Json := Assoc.get? (Points.ofString key) fs

/-! ## What an item must have -/

/-- What the items of one list of a graph must have. -/
structure ItemRule where
  /-- The members that are looked for first, in this order. -/
  keys : List String
  /-- The member that is looked for last, which must be one of the words. -/
  wordKey : String
  words : List Text
  /-- The fault of an item where that member is none of the words. -/
  notAWord : Json → RecordFault

namespace ItemRule

/-- All members that an item must have, in the order in which they are looked for. -/
def needed (r : ItemRule) : List String := r.keys ++ [r.wordKey]

/-- The item has all members that it must have, and the last of them is one of the words. -/
structure Good (r : ItemRule) (fs : Fields) : Prop where
  present : ∀ key ∈ r.needed, (at? key fs).isSome = true
  word : ∃ w ∈ r.words, at? r.wordKey fs = some (.text w)

/-- The fault of an item: the first member that is missing, or else a last one that is no
word. -/
def fault? (r : ItemRule) (fs : Fields) : Option RecordFault :=
  match r.needed.find? fun key => (at? key fs).isNone with
  | some key => some (.missing key.toList)
  | none => (at? r.wordKey fs).bind fun v =>
      if (r.words.map Json.text).contains v then none else some (r.notAWord v)

/-- The fault of the first item that has one. -/
def firstFault? (r : ItemRule) (items : List Fields) :
    Option RecordFault := items.findSome? r.fault?

/-- Where a member is missing, the first such is the fault. -/
theorem fault?_of_missing {r : ItemRule} {fs : Fields} (before after : List String)
    {key : String} (hneeded : r.needed = before ++ key :: after)
    (hbefore : ∀ k ∈ before, (at? k fs).isSome = true) (hkey : at? key fs = none) :
    r.fault? fs = some (.missing key.toList) := by
  have hfind : (r.needed.find? fun k => (at? k fs).isNone) = some key := by
    rw [hneeded, List.find?_append, List.find?_eq_none.mpr, Option.none_or]
    · exact List.find?_cons_of_pos (by rw [hkey]; rfl)
    · intro k hk
      rw [Option.isNone_eq_false_iff.mpr (hbefore k hk)]
      exact Bool.false_ne_true
  rw [fault?, hfind]

/-- Where no member is missing, the fault is that the last one is no word. -/
theorem fault?_of_present {r : ItemRule} {fs : Fields}
    (hpresent : ∀ k ∈ r.needed, (at? k fs).isSome = true) {v : Json}
    (hv : at? r.wordKey fs = some v) :
    r.fault? fs = if (r.words.map Json.text).contains v then none else some (r.notAWord v) := by
  have hfind : (r.needed.find? fun k => (at? k fs).isNone) = none := by
    refine List.find?_eq_none.mpr fun k hk => ?_
    rw [Option.isNone_eq_false_iff.mpr (hpresent k hk)]
    exact Bool.false_ne_true
  rw [fault?, hfind, hv]
  rfl

/-- An item is good exactly if it has no fault. -/
theorem fault?_eq_none_iff (r : ItemRule) (fs : Fields) : r.fault? fs = none ↔ r.Good fs := by
  by_cases hpresent : ∀ k ∈ r.needed, (at? k fs).isSome = true
  · have hlast : r.wordKey ∈ r.needed := List.mem_append_right _ (List.mem_singleton.mpr rfl)
    obtain ⟨v, hv⟩ := Option.isSome_iff_exists.mp (hpresent _ hlast)
    rw [fault?_of_present hpresent hv, ite_eq_left_iff]
    constructor
    · intro hnone
      refine ⟨hpresent, ?_⟩
      by_contra hword
      refine Option.some_ne_none _ (hnone fun hcontains => hword ?_)
      obtain ⟨w, hw, rfl⟩ := List.mem_map.mp (List.contains_iff_mem.mp hcontains)
      exact ⟨w, hw, hv⟩
    · rintro ⟨-, w, hw, hword⟩ hnot
      obtain rfl := Option.some.inj (hv.symm.trans hword)
      exact absurd (List.contains_iff_mem.mpr (List.mem_map_of_mem hw)) hnot
  · refine iff_of_false ?_ fun hgood => hpresent hgood.present
    unfold fault?
    split
    · exact Option.some_ne_none _
    · next hfind =>
      refine absurd (fun k hk => ?_) hpresent
      exact Option.isSome_iff_ne_none.mpr (by simpa using List.find?_eq_none.mp hfind k hk)

/-- A list of items is without fault exactly if all of them are good. -/
theorem firstFault?_eq_none_iff (r : ItemRule) (items : List Fields) :
    r.firstFault? items = none ↔ ∀ fs ∈ items, r.Good fs := by
  simp only [firstFault?, List.findSome?_eq_none_iff, fault?_eq_none_iff]

end ItemRule

/-! ## The two readers follow their rules -/

theorem Json.member_of_at? {key : String} {fs : Fields} {v : Json} (hv : at? key fs = some v) :
    member (.obj fs) key = .ok v := by
  rw [at?] at hv
  rw [member, hv]

theorem Json.member_of_missing {key : String} {fs : Fields} (hkey : at? key fs = none) :
    member (.obj fs) key = .error (.missing key.toList) := by
  rw [at?] at hkey
  rw [member, hkey]

/-- A reader that looks for two members and for a word, and goes on with what it found. -/
def readParts {α β : Type} (first second third : String) (ofWord : Json → Except RecordFault α)
    (rest : Json → Json → α → Except RecordFault β) (v : Json) : Except RecordFault β := do
  let a ← member v first
  let b ← member v second
  let c ← ofWord (← member v third)
  rest a b c

section

variable {α β : Type} {r : ItemRule} {ofWord : Json → Except RecordFault α} {word : α → Text}
  (hword : ∀ w ∈ r.words, ∃ a, word a = w ∧ ofWord (.text w) = .ok a)
  (hother : ∀ v, v ∉ r.words.map Json.text → ofWord v = .error (r.notAWord v))
include hword hother

/-- Where no member is missing, the item has a fault exactly if its last member is read as no
word. -/
theorem ItemRule.reads_word {fs : Fields}
    (hpresent : ∀ k ∈ r.needed, (at? k fs).isSome = true) {v : Json}
    (hv : at? r.wordKey fs = some v) :
    (∃ fault, r.fault? fs = some fault ∧ ofWord v = .error fault) ∨
    (r.fault? fs = none ∧ ∃ c, v = .text (word c) ∧ ofWord v = .ok c) := by
  have hfault := fault?_of_present hpresent hv
  by_cases hmem : v ∈ r.words.map Json.text
  · obtain ⟨w, hw, rfl⟩ := List.mem_map.mp hmem
    obtain ⟨c, rfl, hc⟩ := hword w hw
    rw [if_pos (List.contains_iff_mem.mpr hmem)] at hfault
    exact Or.inr ⟨hfault, c, rfl, hc⟩
  · rw [if_neg fun hcontains => hmem (List.contains_iff_mem.mp hcontains)] at hfault
    exact Or.inl ⟨_, hfault, hother v hmem⟩

/-- Such a reader fails with the fault of the item, or goes on. -/
theorem ItemRule.reads {first second : String} (hkeys : r.keys = [first, second])
    (rest : Json → Json → α → Except RecordFault β) (fs : Fields) :
    (∃ fault, r.fault? fs = some fault ∧
      readParts first second r.wordKey ofWord rest (.obj fs) = .error fault) ∨
    (r.fault? fs = none ∧ ∃ a b c, at? first fs = some a ∧ at? second fs = some b ∧
      at? r.wordKey fs = some (.text (word c)) ∧
      readParts first second r.wordKey ofWord rest (.obj fs) = rest a b c) := by
  have hneeded : r.needed = [first, second, r.wordKey] := by rw [needed, hkeys]; rfl
  cases hfirst : at? first fs with
  | none =>
      refine Or.inl ⟨_, fault?_of_missing [] _ hneeded (List.forall_mem_nil _) hfirst, ?_⟩
      rw [readParts, member_of_missing hfirst]
      rfl
  | some a =>
      have hone : (at? first fs).isSome = true := by rw [hfirst]; rfl
      cases hsecond : at? second fs with
      | none =>
          refine Or.inl ⟨_, fault?_of_missing [first] _ hneeded ?_ hsecond, ?_⟩
          · exact List.forall_mem_singleton.mpr hone
          · rw [readParts, member_of_at? hfirst, member_of_missing hsecond]
            rfl
      | some b =>
          have htwo : (at? second fs).isSome = true := by rw [hsecond]; rfl
          cases hthird : at? r.wordKey fs with
          | none =>
              refine Or.inl ⟨_, fault?_of_missing [first, second] _ hneeded ?_ hthird, ?_⟩
              · exact List.forall_mem_cons.mpr ⟨hone, List.forall_mem_singleton.mpr htwo⟩
              · rw [readParts, member_of_at? hfirst, member_of_at? hsecond,
                  member_of_missing hthird]
                rfl
          | some v =>
              have hpresent : ∀ k ∈ r.needed, (at? k fs).isSome = true := by
                simp [hneeded, hfirst, hsecond, hthird]
              have hread : readParts first second r.wordKey ofWord rest (.obj fs) =
                  (ofWord v >>= rest a b) := by
                rw [readParts, member_of_at? hfirst, member_of_at? hsecond,
                  member_of_at? hthird]
                rfl
              rw [hread]
              obtain ⟨fault, hfault, herror⟩ | ⟨hnone, c, rfl, hc⟩ :=
                reads_word hword hother hpresent hthird
              · exact Or.inl ⟨fault, hfault, by rw [herror]; rfl⟩
              · exact Or.inr ⟨hnone, a, b, c, rfl, rfl, rfl, by rw [hc]; rfl⟩

end

/-- The rule of nodes. -/
def nodeRule : ItemRule where
  keys := ["id", "label"]
  wordKey := "type"
  words := NodeKind.all.map NodeKind.word
  notAWord := .notAKind

/-- The rule of edges. -/
def edgeRule : ItemRule where
  keys := ["source", "target"]
  wordKey := "relation"
  words := Relation.all.map Relation.word
  notAWord := .notARelation

/-- What is none of the words of some values is not found among them. -/
theorem find?_word_eq_none {α : Type} {all : List α} {word : α → Text} {v : Json}
    (hv : v ∉ (all.map word).map Json.text) :
    (v.text?.bind fun t => all.find? fun a => word a = t) = none := by
  rw [Option.bind_eq_none_iff]
  intro t ht
  refine List.find?_eq_none.mpr fun a ha hword => hv ?_
  have htext : v = .text t := by
    cases v with
    | str s => exact congrArg Json.str (Points.eq_points_of_text? ht)
    | _ => cases ht
  rw [htext, ← of_decide_eq_true hword]
  exact List.mem_map_of_mem (List.mem_map_of_mem ha)

theorem NodeKind.ofJson_of_not_mem {v : Json} (hv : v ∉ nodeRule.words.map Json.text) :
    NodeKind.ofJson v = .error (.notAKind v) := by
  rw [NodeKind.ofJson, show v.text?.bind NodeKind.ofWord? = none from find?_word_eq_none hv]
  rfl

theorem Relation.ofJson_of_not_mem {v : Json} (hv : v ∉ edgeRule.words.map Json.text) :
    Relation.ofJson v = .error (.notARelation v) := by
  rw [Relation.ofJson, show v.text?.bind Relation.ofWord? = none from find?_word_eq_none hv]
  rfl

/-! ## What is read from an item -/

/-- The members of an item's metadata; if there are none, those given. -/
def Json.tableOr (default : Metadata) (fs : Fields) : Metadata :=
  match at? "metadata" fs with
  | some (.obj (m :: ms)) => Metadata.ofFields (m :: ms)
  | _ => default

/-- The node has what its item says; a path or a line that is missing is null. -/
structure NodeRecord.IsReadFrom (n : NodeRecord) (fs : Fields) : Prop where
  id : at? "id" fs = some n.id
  label : at? "label" fs = some n.label
  kind : at? "type" fs = some (.text n.kind.word)
  filePath : n.filePath = (at? "filePath" fs).getD .null
  line : n.line = (at? "line" fs).getD .null
  metadata : n.metadata = tableOr [] fs

/-- The edge has what its item says, but for its identifier. Without metadata it stands for one
reference. -/
structure EdgeRecord.HasParts (e : EdgeRecord) (fs : Fields) : Prop where
  source : at? "source" fs = some e.source
  target : at? "target" fs = some e.target
  relation : at? "relation" fs = some (.text e.relation.word)
  metadata : e.metadata = tableOr (Metadata.ofWeight 1) fs

/-- The edge has what its item says, and an identifier that is missing or empty is made of its
source, its relation and its target. -/
structure EdgeRecord.IsReadFrom (e : EdgeRecord) (fs : Fields) :
    Prop extends e.HasParts fs where
  givenId : ∀ id, at? "id" fs = some (.str id) → id ≠ [] → e.id = .str id
  filledId : at? "id" fs = none ∨ at? "id" fs = some (.str []) → ∃ s t, e.source = .str s ∧
    e.target = .str t ∧ e.id = .str (s ++ .char '|' :: e.relation.word.points ++ .char '|' :: t)

theorem Json.memberOr_obj (key : String) (default : Json) (fs : Fields) :
    memberOr (.obj fs) key default = .ok ((at? key fs).getD default) := rfl

theorem Json.memberIs_obj {p : Json → Bool} {key : String} {fs : Fields} {v : Json}
    (hp : memberIs p key (.obj fs) = true) (hv : at? key fs = some v) : p v = true := by
  rwa [memberIs, member_of_at? hv] at hp

/-- Metadata that are an object, if there are any, can be read. -/
theorem Json.membersOr_metadata {fs : Fields}
    (htable : memberIs isTable "metadata" (.obj fs) = true) (default : Metadata) :
    membersOr ((at? "metadata" fs).getD .null) default = .ok (tableOr default fs) := by
  unfold tableOr
  cases hv : at? "metadata" fs with
  | none => rfl
  | some v =>
      have hv := memberIs_obj htable hv
      cases v with
      | null => rfl
      | obj ms => cases ms <;> rfl
      | _ => cases hv

/-- A node fails with its fault, or is read. -/
theorem NodeRecord.ofJson_item {fs : Fields} (hitem : (obj fs).isItem = true) :
    (∃ fault, nodeRule.fault? fs = some fault ∧ NodeRecord.ofJson (.obj fs) = .error fault) ∨
    (nodeRule.fault? fs = none ∧ ∃ n, NodeRecord.ofJson (.obj fs) = .ok n ∧
      (∃ s, n.id = .str s) ∧ n.IsReadFrom fs) := by
  obtain ⟨hids, htable⟩ := Bool.and_eq_true_iff.mp hitem
  have hword : ∀ w ∈ nodeRule.words, ∃ k : NodeKind, k.word = w ∧
      NodeKind.ofJson (.text w) = .ok k := by
    intro w hw
    obtain ⟨k, -, rfl⟩ := List.mem_map.mp hw
    exact ⟨k, rfl, NodeKind.ofJson_word k⟩
  refine (ItemRule.reads hword (fun v => NodeKind.ofJson_of_not_mem) rfl
    (fun id label kind => do
    let filePath ← memberOr (.obj fs) "filePath" .null
    let line ← memberOr (.obj fs) "line" .null
    let metadata ← membersOr (← memberOr (.obj fs) "metadata" .null) []
    return ({ id, label, kind, filePath, line, metadata } : NodeRecord)) fs).imp_right ?_
  rintro ⟨hnone, id, label, kind, hid, hlabel, hkind, hread⟩
  refine ⟨hnone, { id, label, kind, filePath := (at? "filePath" fs).getD .null
                   line := (at? "line" fs).getD .null, metadata := tableOr [] fs },
    hread.trans ?_, exists_of_isString (memberIs_obj hids hid),
    ⟨hid, hlabel, hkind, rfl, rfl, rfl⟩⟩
  simp only [memberOr_obj, membersOr_metadata htable, bind, Except.bind]
  rfl

/-- The ends of an edge are strings, where it has them. -/
def Json.hasStringEnds (v : Json) : Bool :=
  v.memberIs isString "source" && v.memberIs isString "target"

/-- An edge as it is read can be given an identifier. -/
theorem EdgeRecord.exists_fillId {e : EdgeRecord} {fs : Fields} (hparts : e.HasParts fs)
    (hid : e.id = (at? "id" fs).getD (.str [])) (hitem : (obj fs).isItem = true)
    (hends : (obj fs).hasStringEnds = true) : ∃ e', e.fillId = .ok e' ∧ e'.IsReadFrom fs := by
  obtain ⟨hsources, htargets⟩ := Bool.and_eq_true_iff.mp hends
  obtain ⟨s, hs⟩ := exists_of_isString (memberIs_obj hsources hparts.source)
  obtain ⟨t, ht⟩ := exists_of_isString (memberIs_obj htargets hparts.target)
  have hfill : e.id = .str [] →
      e.fillId = .ok { e with id := .str (linkId s e.relation t) } := by
    intro hempty
    rw [fillId, if_neg (by rw [hasId, hempty]; exact Bool.false_ne_true), hs, ht]
  cases hgiven : at? "id" fs with
  | none =>
      rw [hgiven] at hid
      refine ⟨_, hfill hid,
        ⟨⟨hparts.source, hparts.target, hparts.relation, hparts.metadata⟩, ?_, ?_⟩⟩
      · intro id hid
        exact absurd (hgiven.symm.trans hid) (Option.some_ne_none _).symm
      · exact fun _ => ⟨s, t, hs, ht, rfl⟩
  | some v =>
      obtain ⟨id, rfl⟩ :=
        exists_of_isString (memberIs_obj (Bool.and_eq_true_iff.mp hitem).1 hgiven)
      rw [hgiven] at hid
      cases id with
      | nil =>
          refine ⟨_, hfill hid,
            ⟨⟨hparts.source, hparts.target, hparts.relation, hparts.metadata⟩, ?_, ?_⟩⟩
          · intro id hid hne
            exact absurd (Json.str.inj (Option.some.inj (hgiven.symm.trans hid))).symm hne
          · exact fun _ => ⟨s, t, hs, ht, rfl⟩
      | cons p rest =>
          refine ⟨e, if_pos (by rw [hasId, hid]; rfl), ⟨hparts, ?_, ?_⟩⟩
          · intro id hid' _
            exact hid.trans (Option.some.inj (hgiven.symm.trans hid'))
          · rintro (hnone | hempty)
            · exact absurd (hgiven.symm.trans hnone) (Option.some_ne_none _)
            · cases hgiven.symm.trans hempty

/-- The identifier of an edge is a string. -/
theorem EdgeRecord.IsReadFrom.exists_id {e : EdgeRecord} {fs : Fields} (he : e.IsReadFrom fs)
    (hitem : (obj fs).isItem = true) : ∃ s, e.id = .str s := by
  have hfilled : at? "id" fs = none ∨ at? "id" fs = some (.str []) → ∃ s, e.id = .str s := by
    intro hempty
    obtain ⟨s, t, -, -, hid⟩ := he.filledId hempty
    exact ⟨_, hid⟩
  cases hgiven : at? "id" fs with
  | none => exact hfilled (Or.inl hgiven)
  | some v =>
      obtain ⟨id, rfl⟩ :=
        exists_of_isString (memberIs_obj (Bool.and_eq_true_iff.mp hitem).1 hgiven)
      by_cases hne : id = []
      · exact hfilled (Or.inr (hne ▸ hgiven))
      · exact ⟨id, he.givenId id hgiven hne⟩

/-- An edge fails with its fault, or is read and can be given an identifier. -/
theorem EdgeRecord.ofJson_item {fs : Fields} (hitem : (obj fs).isItem = true)
    (hends : (obj fs).hasStringEnds = true) :
    (∃ fault, edgeRule.fault? fs = some fault ∧
      EdgeRecord.ofJson (Metadata.ofWeight 1) (.obj fs) = .error fault) ∨
    (edgeRule.fault? fs = none ∧
      ∃ e, EdgeRecord.ofJson (Metadata.ofWeight 1) (.obj fs) = .ok e ∧
      ∃ e', e.fillId = .ok e' ∧ (∃ s, e'.id = .str s) ∧ e'.IsReadFrom fs) := by
  have htable := (Bool.and_eq_true_iff.mp hitem).2
  have hword : ∀ w ∈ edgeRule.words, ∃ r : Relation, r.word = w ∧
      Relation.ofJson (.text w) = .ok r := by
    intro w hw
    obtain ⟨r, -, rfl⟩ := List.mem_map.mp hw
    exact ⟨r, rfl, Relation.ofJson_word r⟩
  refine (ItemRule.reads hword (fun v => Relation.ofJson_of_not_mem) rfl
    (fun source target relation => do
      let metadata ← membersOr (← memberOr (.obj fs) "metadata" .null) (Metadata.ofWeight 1)
      return ({ id := (at? "id" fs).getD (.str [])
                source, target, relation, metadata } : EdgeRecord))
    fs).imp_right ?_
  rintro ⟨hnone, source, target, relation, hsource, htarget, hrelation, hread⟩
  obtain ⟨e', hfill, hfilled⟩ := exists_fillId
    (e := { id := (at? "id" fs).getD (.str []), source, target, relation
            metadata := tableOr (Metadata.ofWeight 1) fs })
    ⟨hsource, htarget, hrelation, rfl⟩ rfl hitem hends
  refine ⟨hnone, _, hread.trans ?_, e', hfill, hfilled.exists_id hitem, hfilled⟩
  simp only [memberOr_obj, membersOr_metadata htable, bind, Except.bind]
  rfl

/-! ## Lists of items -/

/-- A reader that fails with the fault of an item fails on a list of items with the first of
their faults, and else reads them all. -/
theorem ItemRule.readAll_items {α : Type} {r : ItemRule} {read : Json → Except RecordFault α}
    {made : α → Fields → Prop} {items : List Fields}
    (hread : ∀ fs ∈ items, (∃ fault, r.fault? fs = some fault ∧ read (.obj fs) = .error fault) ∨
      (r.fault? fs = none ∧ ∃ a, read (.obj fs) = .ok a ∧ made a fs)) :
    (∃ fault, r.firstFault? items = some fault ∧ readAll read (items.map .obj) = .error fault) ∨
    (r.firstFault? items = none ∧ ∃ as, readAll read (items.map .obj) = .ok as ∧
      List.Forall₂ made as items) := by
  induction items with
  | nil => exact Or.inr ⟨rfl, [], rfl, List.Forall₂.nil⟩
  | cons fs items ih =>
      have hlater := ih fun gs hgs => hread gs (List.mem_cons_of_mem fs hgs)
      simp only [firstFault?, List.findSome?_cons, List.map_cons, readAll] at hlater ⊢
      obtain ⟨fault, hfault, herror⟩ | ⟨hnone, a, ha, hmade⟩ := hread fs List.mem_cons_self
      · rw [hfault, herror]
        exact Or.inl ⟨fault, rfl, rfl⟩
      · rw [hnone, ha]
        refine hlater.imp ?_ ?_
        · rintro ⟨fault, hfault, herror⟩
          refine ⟨fault, hfault, ?_⟩
          simp only [herror]
          rfl
        · rintro ⟨hnone, as, has, hall⟩
          refine ⟨hnone, a :: as, ?_, List.Forall₂.cons hmade hall⟩
          simp only [has]
          rfl

/-- Edges that can all be given identifiers are. -/
theorem EdgeRecord.fillIds_of_forall₂ {made : EdgeRecord → Fields → Prop} {es : List EdgeRecord}
    {items : List Fields}
    (hes : List.Forall₂ (fun e fs => ∃ e', e.fillId = .ok e' ∧ made e' fs) es items) :
    ∃ es', fillIds (fun _ => true) es = (es', none) ∧ List.Forall₂ made es' items := by
  induction hes with
  | nil => exact ⟨[], rfl, List.Forall₂.nil⟩
  | cons he _ ih =>
      obtain ⟨e', hfill, hmade⟩ := he
      obtain ⟨es', hrest, hall⟩ := ih
      exact ⟨e' :: es', by simp [fillIds, hfill, hrest], List.Forall₂.cons hmade hall⟩

/-- The object has a list of the given objects under a key, or no such member and none are
given. -/
def Json.Lists (fs : Fields) (key : String) (items : List Fields) : Prop :=
  at? key fs = some (.arr (items.map .obj)) ∨ (at? key fs = none ∧ items = [])

theorem Json.Lists.memberOr_eq {fs : Fields} {key : String} {items : List Fields}
    (hlists : Lists fs key items) :
    memberOr (.obj fs) key (.arr []) = .ok (.arr (items.map .obj)) := by
  rw [memberOr_obj]
  obtain hgiven | ⟨hnone, rfl⟩ := hlists
  · rw [hgiven]
    rfl
  · rw [hnone]
    rfl

/-! ## Graphs -/

/-- The graph is read from items: its nodes and edges are what is read from them, put in
order. -/
def GraphRecord.IsReadFrom (g : GraphRecord) (nodes edges : List Fields) : Prop :=
  ∃ (ns : List NodeRecord) (es : List EdgeRecord),
    List.Forall₂ NodeRecord.IsReadFrom ns nodes ∧ List.Forall₂ EdgeRecord.IsReadFrom es edges ∧
    SortedFrom NodeRecord.id ns g.nodes ∧ SortedFrom EdgeRecord.id es g.edges

section

variable {fs : Fields} {nodes edges : List Fields} (hnodes : Lists fs "nodes" nodes)
  (hedges : Lists fs "edges" edges) (hnode : ∀ n ∈ nodes, (obj n).isItem = true)
  (hedge : ∀ e ∈ edges, (obj e).isItem = true ∧ (obj e).hasStringEnds = true)
include hnodes hedges hnode hedge

/-- Reading a graph fails with the first fault of its nodes or else of its edges, or reads
it. -/
theorem GraphRecord.ofJson_lists :
    (∃ fault, (nodeRule.firstFault? nodes).or (edgeRule.firstFault? edges) = some fault ∧
      GraphRecord.ofJson (.obj fs) = .error fault) ∨
    ((nodeRule.firstFault? nodes).or (edgeRule.firstFault? edges) = none ∧
      ∃ g, GraphRecord.ofJson (.obj fs) = .ok g ∧ g.IsReadFrom nodes edges) := by
  have hnodeItems := ItemRule.readAll_items fun n hn => NodeRecord.ofJson_item (hnode n hn)
  have hedgeItems := ItemRule.readAll_items fun e he =>
      EdgeRecord.ofJson_item (hedge e he).1 (hedge e he).2
  simp only [GraphRecord.ofJson, hnodes.memberOr_eq, hedges.memberOr_eq, readItemsOf,
    items?, bind, Except.bind]
  obtain ⟨fault, hfault, herror⟩ | ⟨hnone, ns, hns, hreadNodes⟩ := hnodeItems
  · exact Or.inl ⟨fault, by rw [hfault, Option.some_or], by rw [herror]⟩
  · rw [hnone, Option.none_or, hns]
    obtain ⟨fault, hfault, herror⟩ | ⟨hnone, es, hes, hreadEdges⟩ := hedgeItems
    · exact Or.inl ⟨fault, hfault, by simp only [herror]⟩
    · obtain ⟨es', hfill, hfilled⟩ := EdgeRecord.fillIds_of_forall₂ hreadEdges
      obtain ⟨hnodeIds, hreadNodes⟩ := (List.forall₂_and_left _ _).mp hreadNodes
      obtain ⟨hedgeIds, hreadEdges⟩ := (List.forall₂_and_left _ _).mp hfilled
      obtain ⟨sortedNodes, hsortNodes, hsortedNodes⟩ := exists_sortedFrom hnodeIds
      obtain ⟨sortedEdges, hsortEdges, hsortedEdges⟩ := exists_sortedFrom hedgeIds
      refine Or.inr ⟨hnone, ⟨sortedNodes, sortedEdges⟩, ?_, ns, es', hreadNodes, hreadEdges,
        hsortedNodes, hsortedEdges⟩
      simp only [hes, ordered, hfill, hsortNodes, hsortEdges, bind, Except.bind]
      rfl

end

/-- Take an object whose lists of nodes and edges, where it has them, are lists of objects. The
nodes and edges have strings for their identifiers and ends and objects for their metadata,
where they have them; all else may be anything. The object is read as a graph exactly if every
node has an identifier, a label and one of the four kinds, and every edge a source, a target and
one of the five relations. Otherwise the fault is that of the first node that has one, or, if
none has, of the first edge: the first member that is missing, or else a kind or relation that
is none. A graph that is read has the given nodes and edges, each once, in a stable order of
their identifiers; an edge without identifier has that of its ends and relation, and one without
metadata the weight one. -/
theorem reading_exact (fs : Fields) (nodes edges : List Fields)
    (hnodes : Lists fs "nodes" nodes) (hedges : Lists fs "edges" edges)
    (hnode : ∀ n ∈ nodes, (obj n).isItem = true)
    (hedge : ∀ e ∈ edges, (obj e).isItem = true ∧ (obj e).hasStringEnds = true) :
    ((∃ g, GraphRecord.ofJson (.obj fs) = .ok g) ↔
      (∀ n ∈ nodes, nodeRule.Good n) ∧ ∀ e ∈ edges, edgeRule.Good e) ∧
    (∀ fault, GraphRecord.ofJson (.obj fs) = .error fault ↔
      (nodeRule.firstFault? nodes).or (edgeRule.firstFault? edges) = some fault) ∧
    ∀ g, GraphRecord.ofJson (.obj fs) = .ok g → g.IsReadFrom nodes edges := by
  have hgood : (nodeRule.firstFault? nodes).or (edgeRule.firstFault? edges) = none ↔
      (∀ n ∈ nodes, nodeRule.Good n) ∧ ∀ e ∈ edges, edgeRule.Good e := by
    rw [Option.or_eq_none_iff, ItemRule.firstFault?_eq_none_iff,
      ItemRule.firstFault?_eq_none_iff]
  rw [← hgood]
  obtain ⟨fault, hfault, herror⟩ | ⟨hnone, g, hok, hread⟩ :=
    GraphRecord.ofJson_lists hnodes hedges hnode hedge
  · rw [hfault, herror]
    refine ⟨iff_of_false (fun ⟨g, hg⟩ => nomatch hg) (Option.some_ne_none fault),
      fun fault' => ?_, ?_⟩
    · rw [Except.error.injEq, Option.some_inj]
    · exact fun g hg => nomatch hg
  · rw [hnone, hok]
    refine ⟨iff_of_true ⟨g, rfl⟩ rfl, fun fault => ?_, ?_⟩
    · exact iff_of_false (fun hg => nomatch hg) (Option.some_ne_none fault).symm
    · intro g' hg
      exact Except.ok.inj hg ▸ hread

/-- The members of an object. -/
def membersOf (fields : List (String × Json)) : Fields :=
  fields.map fun (k, v) => (Points.ofString k, v)

/-- A good node, and one that has no label and a kind that is none. -/
def faultyNodes : List Fields :=
  [membersOf [("id", Json.ofString "b"), ("label", Json.ofString "b"),
    ("type", Json.ofString "module")],
    membersOf [("type", Json.ofString "x"), ("id", Json.ofString "a")]]

/-- An object with these nodes and an edge that has nothing. -/
def faultyGraph : Fields :=
  membersOf [("edges", .arr [.obj []]), ("nodes", .arr (faultyNodes.map .obj))]

/-- The label that is missing is told before the kind that is none, and before what the edge
lacks. -/
theorem reading_exact_faultyGraph :
    Lists faultyGraph "nodes" faultyNodes ∧ Lists faultyGraph "edges" [[]] ∧
    GraphRecord.ofJson (.obj faultyGraph) = .error (.missing "label".toList) := by
  have hnodes : Lists faultyGraph "nodes" faultyNodes := Or.inl (by decide +kernel)
  have hedges : Lists faultyGraph "edges" [[]] := Or.inl (by decide +kernel)
  have hitems : ∀ n ∈ faultyNodes, (obj n).isItem = true :=
    List.all_eq_true.mp (by decide +kernel)
  have hedge : ∀ e ∈ [([] : Fields)], (obj e).isItem = true ∧ (obj e).hasStringEnds = true :=
    List.forall_mem_singleton.mpr ⟨rfl, rfl⟩
  obtain ⟨-, hfault, -⟩ := reading_exact faultyGraph faultyNodes [[]] hnodes hedges hitems hedge
  exact ⟨hnodes, hedges, (hfault _).mpr (by decide +kernel)⟩

end SymbolGraph
