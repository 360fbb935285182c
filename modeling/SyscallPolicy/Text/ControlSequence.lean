/-! Sequences of characters that steer a terminal, and the text around them. Texts without control
characters stay as they are, and no control characters but tabs and breaks are left of any text. -/
namespace SyscallPolicy.Text

inductive SequenceStage where
  | outside
  | escape
  | escapeIntermediate
  | control
  | deviceEntry
  | deviceParameter
  | deviceIntermediate
  | string
  | command
  deriving DecidableEq, Repr

def isBreak (c : Char) : Bool := c = '\t' ∨ c = '\n' ∨ c = '\x0c' ∨ c = '\r'

/-- What shows as text: tabs, breaks, and all characters that do not control. The ones after
ASCII count as text. -/
def isText (c : Char) : Bool := isBreak c ∨ ' ' ≤ c ∧ c ≠ '\x7f'

namespace SequenceStage

/-- The stage after one more character. Cancel and substitute end a sequence at once, and an escape
begins another. A string ends with the byte `9c`, wherever in a character this stands. -/
def after (stage : SequenceStage) (c : Char) : SequenceStage :=
  if c = '\x18' ∨ c = '\x1a' then outside
  else if c = '\x1b' then escape
  else
    match stage with
    | outside => outside
    | escape =>
      if ' ' ≤ c ∧ c ≤ '/' then escapeIntermediate
      else if c = '[' then control
      else if c = ']' then command
      else if c = 'P' then deviceEntry
      else if c = 'X' ∨ c = '^' ∨ c = '_' then string
      else if '0' ≤ c ∧ c ≤ '~' then outside
      else escape
    | escapeIntermediate => if '0' ≤ c ∧ c ≤ '~' then outside else escapeIntermediate
    | control => if '@' ≤ c ∧ c ≤ '~' then outside else control
    | deviceEntry =>
      if ' ' ≤ c ∧ c ≤ '/' then deviceIntermediate
      else if '0' ≤ c ∧ c ≤ '?' then deviceParameter
      else if '@' ≤ c ∧ c ≤ '~' then string
      else deviceEntry
    | deviceParameter =>
      if ' ' ≤ c ∧ c ≤ '/' then deviceIntermediate
      else if '<' ≤ c ∧ c ≤ '~' then string
      else deviceParameter
    | deviceIntermediate => if '0' ≤ c ∧ c ≤ '~' then string else deviceIntermediate
    | string => if 0x9c ∈ String.utf8EncodeChar c then outside else string
    | command => if c = '\x07' then outside else command

def showsBreaks (stage : SequenceStage) : Bool :=
  stage = escape ∨ stage = escapeIntermediate ∨ stage = control

end SequenceStage

/-- The text around the sequences. After a break that shows inside a sequence there is text too; the
next control character goes on with the sequence, unless a character outside ASCII has ended it. -/
def shown (stage : SequenceStage) (inText : Bool) : List Char → List Char
  | [] => []
  | c :: rest =>
    if (inText ∨ stage = .outside) ∧ isText c then
      c :: shown (if c.toNat < 0x80 then stage else .outside) true rest
    else if isBreak c ∧ stage.showsBreaks then c :: shown stage true rest
    else shown (stage.after c) false rest

/-- Text shows as it is. -/
theorem shown_of_isText {text : List Char} (h : ∀ c ∈ text, isText c) (stage : SequenceStage) :
    shown stage true text = text := by
  induction text generalizing stage with
  | nil => rfl
  | cons c rest ih =>
    simp only [List.mem_cons, forall_eq_or_imp] at h
    simp [shown, h.1, ih h.2]

/-- Only text shows. -/
theorem isText_of_mem_shown {c : Char} {text : List Char} {stage : SequenceStage} {inText : Bool}
    (h : c ∈ shown stage inText text) : isText c := by
  induction text generalizing stage inText with
  | nil => simp [shown] at h
  | cons d rest ih =>
    rw [shown] at h
    split at h
    next hd =>
      rcases List.mem_cons.1 h with rfl | h
      · exact hd.2
      · exact ih h
    next =>
      split at h
      next hd =>
        rcases List.mem_cons.1 h with rfl | h
        · simp [isText, hd.1]
        · exact ih h
      next => exact ih h

def withoutSequences (text : String) : String := .ofList (shown .outside false text.toList)

end SyscallPolicy.Text
