import SyscallPolicy.CommandLine.Arguments
import SyscallPolicy.CommandLine.Folder
import SyscallPolicy.CommandLine.LogFilter
import SyscallPolicy.Filter.Lowering
import SyscallPolicy.Filter.Report
import SyscallPolicy.Policy.Build
import SyscallPolicy.Support
/-! What the commands do. -/
namespace SyscallPolicy.CommandLine
open Kernel (Errno)
open Text (Symbol)

/-- What the commands learn from the system. -/
structure System where
  find : String → Except Errno Found
  support : Support
  /-- What the environment says about the log. -/
  logDirectives : Option String

structure Outcome where
  exit : Nat
  stdout : String
  stderr : String
  deriving DecidableEq, Repr

def readText (system : System) (path : String) : Except PolicyError String := do
  match ← (system.find path).mapError fun e => .io (.system e) with
  | .directory => throw (.io (.system .isDirectory))
  | .file content =>
    match Symbol.text? (Symbol.ofBytes content) with
    | some text => return text
    | none => throw (.io .notUtf8)

def readPolicy (system : System) (path : String) : Except PolicyError Policy := do
  match ← (system.find path).mapError fun e => .io (.system e) with
  | .directory => throw (.decode (.system .isDirectory))
  | .file content => Policy.decodeBytes content

/-- Reads a whole file as text and checks the policy in it. -/
def validate (system : System) (path : String) : Logged (Except PolicyError String) :=
  match readText system path >>= Policy.decode with
  | .error e => ⟨[.validating path], .error e⟩
  | .ok policy =>
    let validated := policy.validate SyscallTable.number?
    ⟨.validating path :: validated.events, validated.result.map fun _ => "ok"⟩

/-- Builds the policy in a file and reports on the filter. -/
def compile (system : System) (path : String) (json : Bool) : Logged (Except PolicyError String) :=
  match readPolicy system path with
  | .error e => ⟨[.compiling path], .error e⟩
  | .ok policy =>
    let built := policy.build SyscallTable.number?
    match built.result with
    | .error e => ⟨.compiling path :: built.events, .error e⟩
    | .ok filter =>
      let lowered := filter.lower
      ⟨.compiling path :: built.events ++ lowered.events, lowered.result.map fun programs =>
        let lengths := programs.map List.length
        if json then (filter.reportTree lengths).pretty 0 else filter.report lengths⟩

def Command.run (system : System) : Command → Logged (Except PolicyError String)
  | validate path => CommandLine.validate system path
  | compile path json => CommandLine.compile system path json
  | check => ⟨[.checking], .ok system.support.report⟩

def versionText : String := "policy-ctl 0.1.0\n"

def usageText : String :=
  "Usage: policy-ctl [-v] validate FILE | compile [--json] FILE | check\n"

/-- Runs an invocation. The log and an error go to one stream, the result to the other. -/
def Invocation.run (system : System) (invocation : Invocation) : Outcome :=
  let done := invocation.command.run system
  let directives := LogFilter.directives (system.logDirectives.getD "")
  let filter := LogFilter.ofDirectives invocation.verbose directives
  let log := String.join (directives.map LogFilter.Directive.complaint ++
    (done.events.filter filter.shows).map logLine)
  match done.result with
  | .ok text => ⟨0, text ++ "\n", log⟩
  | .error e => ⟨1, "", log ++ "error: " ++ e.chain ++ "\n"⟩

def Wish.fulfil (system : System) : Wish → Outcome
  | run invocation => invocation.run system
  | version => ⟨0, versionText, ""⟩
  | help => ⟨0, usageText, ""⟩
  | wrongUsage => ⟨2, "", usageText⟩

end SyscallPolicy.CommandLine
