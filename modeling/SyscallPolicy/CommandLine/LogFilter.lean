import SyscallPolicy.Event
import SyscallPolicy.Text.ControlSequence
import SyscallPolicy.Text.WhiteSpace
/-! Which events the log shows. -/
namespace SyscallPolicy.CommandLine

/-- A choice of events by source, level and text. A threshold is the rank of the least important
level that is shown, 0 to show none. -/
structure LogFilter where
  general : Nat
  rules : List (String × Nat) := []
  /-- What the text of an event has to contain. -/
  pattern : String := ""
  deriving DecidableEq, Repr

namespace LogFilter

def threshold? (name : String) : Option Nat :=
  if name.toLower = "off" then some 0
  else
    ([.error, .warn, .info, .debug, .trace].find? fun (level : Level) =>
      level.name.toLower = name.toLower).map Level.rank

def initial (verbose : Bool) : LogFilter where
  general := if verbose then Level.debug.rank else Level.warn.rank

/-- A part of what a text says about the log: a threshold for all sources, one for the sources that
begin with a name, or what an event has to contain. -/
inductive Directive where
  | general (threshold : Nat)
  | rule (source : String) (threshold : Nat)
  | pattern (text : String)
  | unclear (text : String)
  | tooManySlashes (text : String)
  deriving DecidableEq, Repr

/-- Reads a threshold, or a source with a threshold or all its events. -/
def Directive.ofText (text : String) : Directive :=
  match text.splitOn "=" with
  | [name] =>
    match threshold? name with
    | some threshold => general threshold
    | none => rule name Level.trace.rank
  | [source, name] =>
    if Text.trim name = "" then rule source Level.trace.rank
    else
      match threshold? (Text.trim name) with
      | some threshold => rule source threshold
      | none => unclear (Text.trim name)
  | _ => unclear text

def Directive.listOfText (text : String) : List Directive :=
  ((text.splitOn ",").map Text.trim).filterMap fun item =>
    if item = "" then none else some (.ofText item)

/-- All that a text says about the log. A pattern may come at its end, after a slash. -/
def directives (text : String) : List Directive :=
  match text.splitOn "/" with
  | [rules] => Directive.listOfText rules
  | [rules, pattern] => Directive.listOfText rules ++ [.pattern pattern]
  | _ => [.tooManySlashes text]

/-- Adds a directive. One that is not understood changes nothing. -/
def add (filter : LogFilter) : Directive → LogFilter
  | .general threshold => { filter with general := threshold }
  | .rule source threshold =>
    { filter with rules := (source, threshold) :: filter.rules.filter (·.1 ≠ source) }
  | .pattern text => { filter with pattern := text }
  | .unclear _ | .tooManySlashes _ => filter

/-- The filter for directives, of which the later ones count. -/
def ofDirectives (verbose : Bool) (directives : List Directive) : LogFilter :=
  directives.foldl add (initial verbose)

def Directive.complaint : Directive → String
  | unclear text => "warning: invalid logging spec '" ++ text ++ "', ignoring it\n"
  | tooManySlashes text =>
    "warning: invalid logging spec '" ++ text ++ "' (too many '/'s), ignoring it\n"
  | _ => ""

/-- The longest of the rules' sources that an event's source begins with. -/
def closest (source : String) : List (String × Nat) → Option (String × Nat)
  | [] => none
  | rule :: rules =>
    match closest source rules with
    | none => if source.startsWith rule.1 then some rule else none
    | some best =>
      if source.startsWith rule.1 ∧ best.1.utf8ByteSize < rule.1.utf8ByteSize then some rule
      else some best

def occurs (pattern text : String) : Bool := pattern = "" ∨ 1 < (text.splitOn pattern).length

/-- Whether an event is shown. The rule with the longest fitting source decides on its level. -/
def shows (filter : LogFilter) (event : Event) : Bool :=
  event.level.rank ≤ ((closest event.source filter.rules).map (·.2)).getD filter.general ∧
    occurs filter.pattern event.text

end LogFilter

/-- The line of an event in the log, the levels in a column of their own, without what would steer a
terminal. -/
def logLine (event : Event) : String :=
  Text.withoutSequences
    (event.level.name.pushn ' ' (5 - event.level.name.length) ++ " " ++ event.text ++ "\n")

end SyscallPolicy.CommandLine
