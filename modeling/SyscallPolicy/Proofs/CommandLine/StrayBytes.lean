import SyscallPolicy.Proofs.CommandLine.Agreement

/-! Files that hold no text. Checking a policy reads the whole file as text, while compiling it
looks for text only where a string is kept. -/
namespace SyscallPolicy.CommandLine
open Text (Symbol)

variable {system : System} {path : String} {bytes : List UInt8}

theorem readText_of_stray (hfile : system.find path = .ok (.file bytes))
    (hstray : ∀ text : String, bytes ≠ text.toUTF8.data.toList) :
    readText system path = .error (.io .notUtf8) := by
  have hnone : Symbol.text? (Symbol.ofBytes bytes) = none := by
    cases htext : Symbol.text? (Symbol.ofBytes bytes) with
    | none => rfl
    | some text => exact absurd (Symbol.text?_ofBytes_eq_some_iff.mp htext) (hstray text)
  simp only [readText, hfile, bind, Except.bind, Except.mapError, hnone]
  rfl

/-- What compiles also passes the check if the file holds text, and only then. Bytes that are no
text fail the check wherever they stand. -/
theorem validate_of_compile (hfile : system.find path = .ok (.file bytes)) (json : Bool)
    (verbose verbose' : Bool) :
    let validating := Invocation.run system ⟨.validate path, verbose⟩
    let compiling := Invocation.run system ⟨.compile path json, verbose'⟩
    (compiling.exit = 0 →
      (validating.exit = 0 ↔ ∃ text : String, bytes = text.toUTF8.data.toList)) ∧
    ((∀ text : String, bytes ≠ text.toUTF8.data.toList) →
      ∃ log, validating = failure log (PolicyError.io .notUtf8).chain) := by
  intro validating compiling
  have hfails (hstray : ∀ text : String, bytes ≠ text.toUTF8.data.toList) :
      ∃ log, validating = failure log (PolicyError.io .notUtf8).chain := by
    refine run_of_error ?_
    simp only [Command.run, validate, readText_of_stray hfile hstray]
    rfl
  refine ⟨fun hcompiles => ⟨fun hvalid => ?_, ?_⟩, hfails⟩
  · by_contra hnone
    obtain ⟨log, hlog⟩ := hfails fun text htext => hnone ⟨text, htext⟩
    rw [hlog] at hvalid
    cases hvalid
  · rintro ⟨text, rfl⟩
    obtain ⟨report, hreport⟩ := exit_run_eq_zero_iff.mp hcompiles
    exact exit_run_eq_zero_iff.mpr
      ⟨"ok", (results_agree hfile json).eq_ok_iff.mpr (.inl ⟨report, hreport⟩)⟩

/-- A file with a policy that allows all calls, and with a note that nothing reads. -/
def annotated (note : List UInt8) : List UInt8 :=
  "\x7b\"defaultAction\": \"SCMP_ACT_ALLOW\", \"note\": \"".toUTF8.data.toList ++ note ++
    "\"\x7d".toUTF8.data.toList

/-- A system on which there is one file, wherever it is looked for. -/
def System.ofFile (content : List UInt8) : System :=
  ⟨fun _ => .ok (.file content), .ofMode none [], none⟩

/-- A note in letters of several bytes. -/
theorem validate_of_compile_text :
    let system := System.ofFile (annotated "für später".toUTF8.data.toList)
    (Invocation.run system ⟨.compile "policy" false, false⟩).exit = 0 ∧
      (Invocation.run system ⟨.validate "policy", false⟩).exit = 0 := by
  intro system
  have hcompiles : (Invocation.run system ⟨.compile "policy" false, false⟩).exit = 0 := by
    decide +kernel
  refine ⟨hcompiles, ?_⟩
  refine ((@validate_of_compile system "policy" _ rfl false false false).1 hcompiles).mpr
    ⟨"\x7b\"defaultAction\": \"SCMP_ACT_ALLOW\", \"note\": \"für später\"\x7d", ?_⟩
  decide +kernel

/-- A note in letters of one byte that is no text: the policy compiles, and the check fails. -/
theorem validate_of_compile_stray :
    let system := System.ofFile (annotated [0x66, 0xfc, 0x72])
    (Invocation.run system ⟨.compile "policy" false, false⟩).exit = 0 ∧
      (Invocation.run system ⟨.validate "policy", false⟩).exit = 1 := by
  decide +kernel

end SyscallPolicy.CommandLine
