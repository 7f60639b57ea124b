import SymbolGraph.Text.Point
import SymbolGraph.Time.Pattern
set_option autoImplicit false

/-!
# Log records

A record has a level and a message. A log keeps the records whose level is at least a given one.
In a file a record is a line with the time, the level, the place in the program and the message;
a message of several lines goes on in lines of its own. A message is a string, since it may name
files whose names have halves.
-/

namespace SymbolGraph

/-- The levels, from the least. -/
inductive Level
  | trace
  | debug
  | info
  | success
  | warning
  | error
  | critical
  deriving DecidableEq, Repr

namespace Level

/-- The word that names a level. -/
def word : Level → String
  | trace => "TRACE"
  | debug => "DEBUG"
  | info => "INFO"
  | success => "SUCCESS"
  | warning => "WARNING"
  | error => "ERROR"
  | critical => "CRITICAL"

/-- All levels, from the least. -/
def all : List Level := [trace, debug, info, success, warning, error, critical]

/-- The level that a word names. -/
def ofWord? (t : Text) : Option Level := all.find? fun l => l.word.toList = t

/-- The place of a level in the order. -/
def rank : Level → Nat
  | trace => 5
  | debug => 10
  | info => 20
  | success => 25
  | warning => 30
  | error => 40
  | critical => 50

/-- What a line has behind the time of a record of a level. -/
def mark (l : Level) : Text :=
  " | ".toList ++ l.word.toList ++ List.replicate (8 - l.word.toList.length) ' ' ++ " | ".toList

@[simp] theorem ofWord?_word (l : Level) : ofWord? l.word.toList = some l := by
  cases l <;> rfl

end Level

/-- A log record. -/
structure LogRecord where
  level : Level
  message : Points
  deriving DecidableEq, Repr

namespace LogRecord

/-- What a line has between the mark of the level and the message. -/
def place : Text := "run:main:1 - ".toList

/-- The form of a time in a line, with a zero for each digit. -/
def timeForm : Text := "0000-00-00 00:00:00".toList

/-- The string has a form: digits where it has zeros, and else its characters. -/
def hasForm : (form : Text) → Points → Bool
  | [], [] => true
  | f :: fs, .char c :: cs => (if f = '0' then c.isDigit else c = f) && hasForm fs cs
  | _, _ => false

/-- The time as a line has it. -/
def timeText (s : TimeStamp) : Text := s.writeMarks 0 "YYYY-MM-DD HH:mm:ss".toList

/-- The record as a line, without the break that ends it. -/
def line (time : TimeStamp) (r : LogRecord) : Points :=
  Text.points (timeText time ++ r.level.mark ++ place) ++ r.message

/-- The message in what a line has behind the mark of the level. -/
def messageOf? (s : Points) : Option Points :=
  (Text.breakOn? (Text.points [' ', '-', ' ']) s).map (·.2)

/-- The record that a line writes. -/
def ofLine? (s : Points) : Option LogRecord :=
  if hasForm timeForm (s.take timeForm.length) then
    Level.all.findSome? fun l =>
      ((Points.dropHead? l.mark (s.drop timeForm.length)).bind messageOf?).map (LogRecord.mk l)
  else none

/-- The message stands behind the place. -/
theorem messageOf?_place (message : Points) :
    messageOf? (place.points ++ message) = some message := by
  have letters : place = ['r', 'u', 'n', ':', 'm', 'a', 'i', 'n', ':', '1', ' ', '-', ' '] := by
    decide
  rw [letters]
  simp only [messageOf?, Text.points, List.map_cons, List.map_nil, List.cons_append,
    List.nil_append]
  rfl

/-- A string that has a form is as long as the form. -/
theorem length_of_hasForm {form : Text} {s : Points} (h : hasForm form s = true) :
    s.length = form.length := by
  induction form generalizing s with
  | nil => cases s <;> simp_all [hasForm]
  | cons f fs ih =>
    rcases s with _ | ⟨_ | _, s⟩
    · simp [hasForm] at h
    · simp only [hasForm, Bool.and_eq_true] at h
      simp [ih h.2]
    · simp [hasForm] at h

/-- The mark of a level is that of no other. -/
theorem dropHead?_mark (l k : Level) (s : Points) :
    Points.dropHead? l.mark (k.mark.points ++ s) = if l = k then some s else none := by
  cases l <;> cases k <;> rfl

/-- A record is read back from its line, if the time has the form that it has in lines. -/
theorem ofLine?_line (time : TimeStamp) (r : LogRecord)
    (h : hasForm timeForm (timeText time).points = true) : ofLine? (r.line time) = some r := by
  obtain ⟨level, message⟩ := r
  have length := length_of_hasForm h
  have parts : line time ⟨level, message⟩ =
      (timeText time).points ++ (level.mark.points ++ (place.points ++ message)) := by
    simp [line, Text.points]
  have front : (line time ⟨level, message⟩).take timeForm.length = (timeText time).points := by
    rw [parts, ← length, List.take_left]
  have back : (line time ⟨level, message⟩).drop timeForm.length =
      level.mark.points ++ (place.points ++ message) := by
    rw [parts, ← length, List.drop_left]
  rw [ofLine?, front, back, if_pos h]
  simp only [dropHead?_mark]
  cases level <;> simp [Level.all, messageOf?_place]

end LogRecord

/-- A log that keeps records from a level on keeps this one. -/
def LogRecord.isKept (least : Level) (r : LogRecord) : Bool := least.rank ≤ r.level.rank

end SymbolGraph
