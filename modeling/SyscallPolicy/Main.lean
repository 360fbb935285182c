import SyscallPolicy.CommandLine.Run
/-! The command line program. -/
open SyscallPolicy
open SyscallPolicy.CommandLine

/-- The number of an error of the system; some are given with a minus sign, as words. -/
def codeOf : IO.Error → UInt32
  | .noFileOrDirectory _ code _ | .interrupted _ code _ | .inappropriateType _ code _
  | .permissionDenied _ code _ | .invalidArgument _ code _ | .alreadyExists _ code _
  | .resourceExhausted _ code _ | .noSuchThing _ code _ | .otherError code _
  | .resourceBusy code _ | .resourceVanished code _ | .unsupportedOperation code _
  | .hardwareFault code _ | .unsatisfiedConstraints code _ | .illegalOperation code _
  | .protocolError code _ | .timeExpired code _ => if code < 0x80000000 then code else 0 - code
  | .unexpectedEof | .userError _ => 0

/-- Opens and reads a file. -/
def findFile (path : String) : IO (Except Kernel.Errno Found) := do
  try
    let content ← IO.FS.readBinFile path
    return .ok (.file content.toList)
  catch e =>
    let errno : Kernel.Errno := ⟨(codeOf e).toNat⟩
    return if errno = .isDirectory then .ok .directory else .error errno

def readIfPossible (path : String) : IO (Option String) := do
  try return some (← IO.FS.readFile path)
  catch _ => return none

def Command.file? : Command → Option String
  | .validate file => some file
  | .compile file _ => some file
  | .check => none

def gather (wish : Wish) : IO System := do
  let file :=
    match wish with
    | .run invocation => Command.file? invocation.command
    | _ => none
  let found ←
    match file with
    | some path => findFile path
    | none => pure (.error .noEntry)
  return {
    find := fun _ => found
    support := .ofFiles (← readIfPossible "/proc/self/status")
      (← readIfPossible "/proc/sys/kernel/seccomp/actions_avail")
    logDirectives := ← IO.getEnv "RUST_LOG" }

def main (args : List String) : IO UInt32 := do
  let wish := Wish.ofArguments args
  let outcome := wish.fulfil (← gather wish)
  IO.print outcome.stdout
  IO.eprint outcome.stderr
  return outcome.exit.toUInt32
