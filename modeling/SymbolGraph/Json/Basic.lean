import SymbolGraph.Assoc
import SymbolGraph.Number.Shortest
import SymbolGraph.Text.Point
import SymbolGraph.Order.RunSort
set_option autoImplicit false

/-!
# JSON values

A JSON value with integers apart from doubles and the members of an object in order. Strings and
keys are strings of code points, since they may have halves of surrogate pairs in them. Beside
the value's own equality stand the comparisons that hold between values of different types:
numbers and truth values compare as numbers (`same`, `less?`), and an object's members have no
order there. What is no number differs from itself, but not as an item of a list or as a key
(`identical`).
-/

namespace SymbolGraph

/-- A JSON value. -/
inductive Json
  | null
  | bool (b : Bool)
  | int (n : Int)
  | float (x : Binary64)
  | str (s : Points)
  | arr (items : List Json)
  | obj (fields : List (Points × Json))
  deriving Repr, Inhabited

/-- The members of an object, in order. -/
abbrev Fields := List (Points × Json)

namespace Json

/-- A text as a JSON value. -/
def text (t : Text) : Json := .str t.points

/-- The string that a value is. -/
def string? : Json → Option Points
  | str s => some s
  | _ => none

/-- The text that a value is, if it is a string without halves. -/
def text? : Json → Option Text
  | str s => s.text?
  | _ => none

/-- A literal as a JSON value. -/
def ofString (s : String) : Json := text s.toList

/-- An object with the given members. -/
def ofFields (fields : List (String × Json)) : Json :=
  .obj (fields.map fun (k, v) => (Points.ofString k, v))

/-- A text that may be missing, as a text or null. -/
def ofText? : Option Text → Json
  | none => .null
  | some t => text t

/-- A truth value that may be missing, or null. -/
def ofBool? : Option Bool → Json
  | none => .null
  | some b => .bool b

/-- A list of texts. -/
def ofTexts (ts : List Text) : Json := .arr (ts.map text)

/-- A text is read back from its JSON value. -/
@[simp] theorem text?_text (t : Text) : (text t).text? = some t := Points.text?_points t

/-! ## Equality -/

mutual
/-- The two values are the same. -/
def beq : Json → Json → Bool
  | null, null => true
  | bool a, bool b => a == b
  | int a, int b => a == b
  | float a, float b => a == b
  | str a, str b => a == b
  | arr a, arr b => beqItems a b
  | obj a, obj b => beqFields a b
  | _, _ => false

/-- The two lists are the same. -/
def beqItems : List Json → List Json → Bool
  | [], [] => true
  | a :: as, b :: bs => beq a b && beqItems as bs
  | _, _ => false

/-- The two lists of members are the same. -/
def beqFields : Fields → Fields → Bool
  | [], [] => true
  | (k, a) :: as, (l, b) :: bs => k == l && beq a b && beqFields as bs
  | _, _ => false
end

mutual
theorem eq_of_beq : ∀ (a b : Json), beq a b = true → a = b
  | null, b, h => by cases b <;> simp_all [beq]
  | bool _, b, h => by cases b <;> simp_all [beq]
  | int _, b, h => by cases b <;> simp_all [beq]
  | float _, b, h => by cases b <;> simp_all [beq]
  | str _, b, h => by cases b <;> simp_all [beq]
  | arr as, b, h => by
    cases b with
    | arr bs => rw [eq_of_beqItems as bs (by simpa [beq] using h)]
    | _ => simp [beq] at h
  | obj as, b, h => by
    cases b with
    | obj bs => rw [eq_of_beqFields as bs (by simpa [beq] using h)]
    | _ => simp [beq] at h

theorem eq_of_beqItems : ∀ (as bs : List Json), beqItems as bs = true → as = bs
  | [], bs, h => by cases bs <;> simp_all [beqItems]
  | a :: as, bs, h => by
    cases bs with
    | nil => simp [beqItems] at h
    | cons b bs =>
      simp only [beqItems, Bool.and_eq_true] at h
      rw [eq_of_beq a b h.1, eq_of_beqItems as bs h.2]

theorem eq_of_beqFields : ∀ (as bs : Fields), beqFields as bs = true → as = bs
  | [], bs, h => by cases bs <;> simp_all [beqFields]
  | (k, a) :: as, bs, h => by
    cases bs with
    | nil => simp [beqFields] at h
    | cons p bs =>
      obtain ⟨l, b⟩ := p
      simp only [beqFields, Bool.and_eq_true, beq_iff_eq] at h
      rw [h.1.1, eq_of_beq a b h.1.2, eq_of_beqFields as bs h.2]
end

mutual
theorem beq_refl : ∀ a : Json, beq a a = true
  | null | bool _ | int _ | float _ | str _ => by simp [beq]
  | arr as => by simpa [beq] using beqItems_refl as
  | obj as => by simpa [beq] using beqFields_refl as

theorem beqItems_refl : ∀ as : List Json, beqItems as as = true
  | [] => rfl
  | a :: as => by simp [beqItems, beq_refl a, beqItems_refl as]

theorem beqFields_refl : ∀ as : Fields, beqFields as as = true
  | [] => rfl
  | (k, a) :: as => by simp [beqFields, beq_refl a, beqFields_refl as]
end

instance : DecidableEq Json := fun a b =>
  if h : beq a b = true then isTrue (eq_of_beq a b h)
  else isFalse fun e => h (e ▸ beq_refl a)

/-! ## Values of any type -/

/-- The value counts as true: it is not null, false, zero or empty. -/
def truthy : Json → Bool
  | null => false
  | bool b => b
  | int n => n != 0
  | float x => x.isNonzero
  | str s => s != []
  | arr items => ! items.isEmpty
  | obj fields => ! fields.isEmpty

/-- The value may be a key: it is neither a list nor an object. -/
def isKey : Json → Bool
  | arr _ | obj _ => false
  | _ => true

/-- The number that a value denotes among numbers; truth values are 0 and 1. -/
def number? : Json → Option Dyadic
  | bool b => some (.ofInt (if b then 1 else 0))
  | int n => some (.ofInt n)
  | float x => x.dyadic?
  | _ => none

/-- The value is the double that is no number. -/
def isNaN : Json → Bool
  | float .nan => true
  | _ => false

mutual
/-- The values are equal, numbers and truth values by their number, and objects whatever the
order of their members. -/
def same : Json → Json → Bool
  | null, null => true
  | str a, str b => a == b
  | arr a, arr b => sameItems a b
  | obj a, obj b => a.length == b.length && sameFields a b
  | float (.infinite a), float (.infinite b) => a == b
  | a, b =>
    match a.number?, b.number? with
    | some x, some y => x.same y
    | _, _ => false

/-- The lists are equal item by item. -/
def sameItems : List Json → List Json → Bool
  | [], [] => true
  | a :: as, b :: bs => (a.isNaN && b.isNaN || same a b) && sameItems as bs
  | _, _ => false

/-- Every member of the first list is in the second. -/
def sameFields : Fields → Fields → Bool
  | [], _ => true
  | (k, a) :: as, bs =>
    (match Assoc.get? k bs with
      | some b => a.isNaN && b.isNaN || same a b
      | none => false) && sameFields as bs
end

/-- The values are equal as keys and as items. -/
def identical (a b : Json) : Bool := a.isNaN && b.isNaN || a.same b

/-- Strings are equal as keys only if they are the same string. -/
theorem identical_str (a b : Points) : (str a).identical (str b) = decide (a = b) := by
  by_cases h : a = b <;> simp [identical, isNaN, same, h]

/-- Texts are equal as keys only if they are the same text. -/
theorem identical_text (a b : Text) : (text a).identical (text b) = decide (a = b) := by
  rw [text, text, identical_str]
  simp [Points.points_inj]

/-- The order of two numbers, where they may be infinite or no numbers. -/
def lessNumber? : Json → Json → Option Bool
  | float .nan, b => if (b.number?).isSome || b matches float _ then some false else none
  | a, float .nan => if (a.number?).isSome || a matches float _ then some false else none
  | float (.infinite a), float (.infinite b) => some (a && ! b)
  | float (.infinite a), b => if (b.number?).isSome then some a else none
  | a, float (.infinite b) => if (a.number?).isSome then some (! b) else none
  | a, b => do return (← a.number?).lt (← b.number?)

mutual
/-- The order of two values: strings by code points, numbers by value, lists by their first
difference. Other values have none. -/
def less? : Json → Json → Option Bool
  | str a, str b => some (a.less b)
  | arr a, arr b => lessItems? a b
  | a, b => lessNumber? a b

/-- The order of two lists. -/
def lessItems? : List Json → List Json → Option Bool
  | [], [] => some false
  | [], _ :: _ => some true
  | _ :: _, [] => some false
  | a :: as, b :: bs => if identical a b then lessItems? as bs else less? a b
end

mutual
/-- The value as messages show it. -/
def display : Json → Text
  | null => "None".toList
  | bool true => "True".toList
  | bool false => "False".toList
  | int n => Text.ofInt n
  | float x => x.render "inf".toList "nan".toList
  | str s => s.quoted
  | arr items => ['['] ++ displayItems items ++ [']']
  | obj fields => ['\x7b'] ++ displayFields fields ++ ['\x7d']

/-- The items of a list, as messages show them. -/
def displayItems : List Json → Text
  | [] => []
  | [v] => display v
  | v :: vs => display v ++ ", ".toList ++ displayItems vs

/-- The members of an object, as messages show them. -/
def displayFields : Fields → Text
  | [] => []
  | [(k, v)] => k.quoted ++ ": ".toList ++ display v
  | (k, v) :: fs => k.quoted ++ ": ".toList ++ display v ++ ", ".toList ++ displayFields fs
end

/-- The word for the type of a value. -/
def typeName : Json → String
  | null => "NoneType"
  | bool _ => "bool"
  | int _ => "int"
  | float _ => "float"
  | str _ => "str"
  | arr _ => "list"
  | obj _ => "dict"

/-- The value as a string: a string is itself, and other values are as messages show them. -/
def plain : Json → Points
  | str s => s
  | v => v.display.points

/-! ## Sorting

Items are put in ascending order of keys that may be any JSON values, as long as those that the
sorting compares do compare; items with equal keys keep their order. Strings always compare, so
that sorting by them is sorting by an order. -/

/-- The values are all strings. -/
def allStrings (ks : List Json) : Bool := ks.all fun k => k matches .str _

/-- One key comes before another, where keys that do not compare do not. -/
def comesBefore (a b : Json) : Bool := a.less? b == some true

/-- Items in ascending order of their keys, if those compare. -/
def sortBy? {α : Type} (key : α → Json) (xs : List α) : Option (List α) :=
  if allStrings (xs.map key) then some (xs.mergeSort fun a b => ! comesBefore (key b) (key a))
  else Order.runSort (fun a b => (key a).less? (key b)) xs

end Json

/-! ## Limits -/

/-- Why a string is not read, or a value not written. -/
inductive JsonFault
  /-- The string is no JSON. -/
  | malformed
  /-- An integer has too many digits. -/
  | longNumeral (digits : Nat)
  /-- Lists and objects lie too deep in each other. -/
  | tooDeep
  deriving DecidableEq, Repr

/-- The limits of a reader or a writer; without a number there is none. -/
structure JsonLimits where
  /-- How deep lists and objects may lie in each other. -/
  depth : Option Nat := none
  /-- How many digits an integer may have. -/
  digits : Option Nat := none

/-- The limits inside a list or an object, if one may lie here. -/
def JsonLimits.inside? (limits : JsonLimits) : Option JsonLimits :=
  match limits.depth with
  | none => some limits
  | some 0 => none
  | some (depth + 1) => some { limits with depth := some depth }

end SymbolGraph
