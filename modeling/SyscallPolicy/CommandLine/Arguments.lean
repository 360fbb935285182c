/-! The arguments of the command line. -/
namespace SyscallPolicy.CommandLine

inductive Command where
  | validate (file : String)
  | compile (file : String) (json : Bool)
  | check
  deriving DecidableEq, Repr

structure Invocation where
  command : Command
  verbose : Bool
  deriving DecidableEq, Repr

inductive Wish where
  | run (invocation : Invocation)
  | version
  | help
  | wrongUsage
  deriving DecidableEq, Repr

namespace Wish

/-- The letters after a single dash, before a command or after it. Each may come once. -/
def letters (version : Bool) : (verbose : Bool) → List Char → Except Wish Bool
  | verbose, [] => .ok verbose
  | verbose, 'v' :: cs => if verbose then .error wrongUsage else letters version true cs
  | _, 'V' :: _ => .error (if version then .version else wrongUsage)
  | _, 'h' :: _ => .error help
  | _, _ :: _ => .error wrongUsage

inductive CommandName where
  | validate
  | compile
  | check
  deriving DecidableEq, Repr

/-- The arguments after a command as far as they have been read. -/
structure Given where
  verbose : Bool := false
  json : Bool := false
  file : Option String := none

/-- Takes an argument for the file. A command takes at most one, and its name is not empty. -/
def takeFile (name : CommandName) (given : Given) (arg : String) : Option Given :=
  if name = .check ∨ given.file.isSome ∨ arg = "" then none
  else some { given with file := some arg }

def finish (name : CommandName) (verbose : Bool) (given : Given) : Wish :=
  let verbose := verbose || given.verbose
  match name, given.file with
  | .validate, some file => run ⟨.validate file, verbose⟩
  | .compile, some file => run ⟨.compile file given.json, verbose⟩
  | .check, none => run ⟨.check, verbose⟩
  | _, _ => wrongUsage

/-- The arguments after a command. After two dashes alone, no argument is an option. -/
def afterCommand (name : CommandName) (verbose : Bool) :
    (options : Bool) → Given → List String → Wish
  | _, given, [] => finish name verbose given
  | options, given, arg :: args =>
    if options ∧ arg = "--" then afterCommand name verbose false given args
    else if options ∧ arg = "--verbose" then
      if given.verbose then wrongUsage
      else afterCommand name verbose true { given with verbose := true } args
    else if options ∧ arg = "--json" then
      if given.json ∨ name ≠ .compile then wrongUsage
      else afterCommand name verbose true { given with json := true } args
    else if options ∧ arg = "--help" then help
    else if options ∧ arg.startsWith "--" then wrongUsage
    else if options ∧ arg.startsWith "-" ∧ arg ≠ "-" then
      match letters false given.verbose (arg.toList.drop 1) with
      | .ok v => afterCommand name verbose true { given with verbose := v } args
      | .error wish => wish
    else
      match takeFile name given arg with
      | some given => afterCommand name verbose options given args
      | none => wrongUsage

def helpOn : List String → Wish
  | [] | ["validate"] | ["compile"] | ["check"] | ["help"] => help
  | _ => wrongUsage

def beforeCommand : (verbose : Bool) → List String → Wish
  | _, [] => wrongUsage
  | verbose, arg :: args =>
    if arg = "--verbose" then if verbose then wrongUsage else beforeCommand true args
    else if arg = "--version" then version
    else if arg = "--help" then help
    else if arg = "help" then helpOn args
    else if arg = "validate" then afterCommand .validate verbose true {} args
    else if arg = "compile" then afterCommand .compile verbose true {} args
    else if arg = "check" then afterCommand .check verbose true {} args
    else if arg.startsWith "-" ∧ ¬arg.startsWith "--" ∧ arg ≠ "-" then
      match letters true verbose (arg.toList.drop 1) with
      | .ok verbose => beforeCommand verbose args
      | .error wish => wish
    else wrongUsage

def ofArguments (args : List String) : Wish := beforeCommand false args

end Wish

end SyscallPolicy.CommandLine
