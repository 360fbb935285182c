import SyscallPolicy.CommandLine.Run
import SyscallPolicy.Proofs.Filter.Lowering
import SyscallPolicy.Proofs.Policy.Acceptance
import SyscallPolicy.Proofs.Text.Encoding

/-! Checking a policy and compiling it come to the same, though one reads a text and the other a
stream of bytes, and though one stops before programs are made of the filter. -/
namespace SyscallPolicy

/-- A policy is the same from a text and from a stream of its bytes. -/
theorem Policy.decodeBytes_toUTF8 (text : String) :
    Policy.decodeBytes text.toUTF8.data.toList = Policy.decode text := by
  rw [Policy.decodeBytes, Policy.ofBytes, Text.Symbol.ofBytes_toUTF8]
  rfl

theorem Policy.kind_of_decode_eq_error {text : String} {e : PolicyError}
    (h : Policy.decode text = .error e) : e.kind = .decode := by
  unfold Policy.decode at h
  cases hread : Policy.ofJson text with
  | error fault =>
    rw [hread] at h
    cases h
    rfl
  | ok policy =>
    rw [hread] at h
    cases h

theorem Filter.kind_of_lower_eq_error {filter : Filter} {e : PolicyError}
    (h : filter.lower.result = .error e) : e.kind = .lowering := by
  rw [Filter.lower_result] at h
  cases hprograms : filter.programs with
  | error fault =>
    rw [hprograms] at h
    cases h
    rfl
  | ok programs =>
    rw [hprograms] at h
    cases h

theorem PolicyError.chain_inBuild (e : PolicyError) :
    (inBuild e).chain = "build seccomp filter: " ++ e.chain := by
  change ": ".intercalate ("build seccomp filter" :: e.text :: e.beneath) = _
  rw [chain, String.intercalate_cons_cons]
  rfl

namespace CommandLine

/-- What checking a policy and compiling it come to: they fail to read it alike, or they find the same
fault in it, or it is accepted and at most making programs fails. -/
inductive Agree : (validated compiled : Except PolicyError String) → Prop
  | unreadable {e : PolicyError} (kind : e.kind = .decode) : Agree (.error e) (.error e)
  | faulty {e : PolicyError} (kind : e.kind ∈ ErrorKind.ofPolicy) :
    Agree (.error (.inBuild e)) (.error e)
  | notLowered {e : PolicyError} (kind : e.kind = .lowering) : Agree (.ok "ok") (.error e)
  | lowered (report : String) : Agree (.ok "ok") (.ok report)

namespace Agree
variable {validated compiled : Except PolicyError String} {e : PolicyError}

theorem eq_ok_iff (h : Agree validated compiled) :
    validated = .ok "ok" ↔
      (∃ report, compiled = .ok report) ∨ ∃ e, e.kind = .lowering ∧ compiled = .error e := by
  cases h with
  | unreadable hkind =>
    refine iff_of_false nofun ?_
    rintro (⟨_, ⟨⟩⟩ | ⟨_, hlowering, ⟨⟩⟩)
    rw [hkind] at hlowering
    cases hlowering
  | faulty hkind =>
    refine iff_of_false nofun ?_
    rintro (⟨_, ⟨⟩⟩ | ⟨_, hlowering, ⟨⟩⟩)
    rw [hlowering] at hkind
    exact absurd hkind (by decide)
  | notLowered hkind => exact iff_of_true rfl (Or.inr ⟨_, hkind, rfl⟩)
  | lowered report => exact iff_of_true rfl (Or.inl ⟨report, rfl⟩)

theorem eq_error_iff (h : Agree validated compiled) (hdecode : e.kind = .decode) :
    validated = .error e ↔ compiled = .error e := by
  cases h with
  | unreadable _ => rfl
  | @faulty other hkind =>
    have hother : other.kind ≠ .decode := ne_of_mem_of_not_mem hkind (by decide)
    constructor
    · rintro ⟨⟩
      exact absurd hdecode hother
    · rintro ⟨⟩
      exact absurd hdecode hother
  | notLowered hkind =>
    refine iff_of_false nofun ?_
    rintro ⟨⟩
    rw [hdecode] at hkind
    cases hkind
  | lowered report => exact iff_of_false nofun nofun

theorem eq_inBuild (h : Agree validated compiled) (hc : compiled = .error e)
    (hdecode : e.kind ≠ .decode) (hlowering : e.kind ≠ .lowering) :
    validated = .error (.inBuild e) := by
  cases h with
  | unreadable hkind =>
    cases hc
    exact absurd hkind hdecode
  | faulty _ =>
    cases hc
    rfl
  | notLowered hkind =>
    cases hc
    exact absurd hkind hlowering
  | lowered report => cases hc

end Agree

variable {system : System} {path text : String}

section Readable
variable (hfile : system.find path = .ok (.file text.toUTF8.data.toList))
include hfile

theorem readText_eq : readText system path = .ok text := by
  simp only [readText, hfile, bind, Except.bind, Except.mapError]
  rw [Text.Symbol.ofBytes_toUTF8, Text.Symbol.text?_ofString]
  rfl

theorem readPolicy_eq : readPolicy system path = Policy.decode text := by
  rw [← Policy.decodeBytes_toUTF8, readPolicy, hfile]
  rfl

theorem results_agree (json : Bool) :
    Agree (validate system path).result (compile system path json).result := by
  have hread : (readText system path >>= Policy.decode) = Policy.decode text := by
    rw [readText_eq hfile]
    rfl
  unfold validate compile
  rw [hread, readPolicy_eq hfile]
  cases hdecode : Policy.decode text with
  | error e => exact .unreadable (Policy.kind_of_decode_eq_error hdecode)
  | ok policy =>
    dsimp only
    rw [Policy.validate_result]
    cases hbuild : (policy.build SyscallTable.number?).result with
    | error e => exact .faulty (Policy.kind_of_build_eq_error hbuild)
    | ok filter =>
      dsimp only
      cases hlower : filter.lower.result with
      | error e => exact .notLowered (Filter.kind_of_lower_eq_error hlower)
      | ok programs => exact .lowered _

end Readable

/-- What a run leaves behind that has failed with a chain of causes. -/
def failure (log chain : String) : Outcome := ⟨1, "", log ++ "error: " ++ chain ++ "\n"⟩

section Run
variable {invocation : Invocation}

theorem run_of_ok {output : String}
    (h : (invocation.command.run system).result = .ok output) :
    ∃ log, invocation.run system = ⟨0, output ++ "\n", log⟩ := by
  simp only [Invocation.run, h]
  exact ⟨_, rfl⟩

theorem run_of_error {e : PolicyError}
    (h : (invocation.command.run system).result = .error e) :
    ∃ log, invocation.run system = failure log e.chain := by
  simp only [Invocation.run, h]
  exact ⟨_, rfl⟩

theorem exit_run_eq_zero_iff :
    (invocation.run system).exit = 0 ↔
      ∃ output, (invocation.command.run system).result = .ok output := by
  cases hresult : (invocation.command.run system).result with
  | ok output =>
    obtain ⟨log, hrun⟩ := run_of_ok hresult
    rw [hrun]
    exact iff_of_true rfl ⟨output, rfl⟩
  | error e =>
    obtain ⟨log, hrun⟩ := run_of_error hresult
    rw [hrun]
    exact iff_of_false Nat.one_ne_zero nofun

theorem run_succeeds_iff {output : String} :
    (invocation.run system).exit = 0 ∧ (invocation.run system).stdout = output ++ "\n" ↔
      (invocation.command.run system).result = .ok output := by
  rw [exit_run_eq_zero_iff]
  constructor
  · rintro ⟨⟨other, hresult⟩, hstdout⟩
    obtain ⟨log, hrun⟩ := run_of_ok hresult
    rw [hrun] at hstdout
    rw [hresult, (String.append_left_inj _).mp hstdout]
  · intro hresult
    obtain ⟨log, hrun⟩ := run_of_ok hresult
    rw [hrun]
    exact ⟨⟨output, hresult⟩, rfl⟩

end Run

/-- Checking and compiling agree on every file that holds text. The policy is read alike, errors in
reading it are reported alike, and so are those in building it, apart from where they occurred. If
there are none, the check succeeds, and compiling can only fail to make programs of the filter. -/
theorem validate_agrees_with_compile
    (hfile : system.find path = .ok (.file text.toUTF8.data.toList)) (json : Bool)
    (verbose verbose' : Bool) :
    let validated := (validate system path).result
    let compiled := (compile system path json).result
    let validating := Invocation.run system ⟨.validate path, verbose⟩
    let compiling := Invocation.run system ⟨.compile path json, verbose'⟩
    Policy.decodeBytes text.toUTF8.data.toList = Policy.decode text ∧
    (validating.exit = 0 ∧ validating.stdout = "ok\n" ↔
      compiling.exit = 0 ∨ ∃ e, e.kind = .lowering ∧ compiled = .error e) ∧
    (∀ e, e.kind = .decode → (validated = .error e ↔ compiled = .error e) ∧
      (compiled = .error e → ∃ log log',
        validating = failure log e.chain ∧ compiling = failure log' e.chain)) ∧
    ∀ e, compiled = .error e → e.kind ≠ .decode → e.kind ≠ .lowering →
      validated = .error (.inBuild e) ∧ ∃ log log',
        validating = failure log ("build seccomp filter: " ++ e.chain) ∧
          compiling = failure log' e.chain := by
  intro validated compiled validating compiling
  have hvalidating {e : PolicyError} (h : validated = .error e) :
      ∃ log, validating = failure log e.chain := run_of_error h
  have hcompiling {e : PolicyError} (h : compiled = .error e) :
      ∃ log, compiling = failure log e.chain := run_of_error h
  have hagree : Agree validated compiled := results_agree hfile json
  have hexit : compiling.exit = 0 ↔ ∃ report, compiled = .ok report := exit_run_eq_zero_iff
  refine ⟨Policy.decodeBytes_toUTF8 text, ?_, fun e hkind => ?_, fun e hc hdecode hlowering => ?_⟩
  · calc validating.exit = 0 ∧ validating.stdout = "ok" ++ "\n"
        ↔ validated = .ok "ok" := run_succeeds_iff
      _ ↔ (∃ report, compiled = .ok report) ∨ ∃ e, e.kind = .lowering ∧ compiled = .error e :=
        hagree.eq_ok_iff
      _ ↔ compiling.exit = 0 ∨ ∃ e, e.kind = .lowering ∧ compiled = .error e :=
        or_congr_left hexit.symm
  · have hiff := hagree.eq_error_iff hkind
    refine ⟨hiff, fun hc => ?_⟩
    obtain ⟨log, hlog⟩ := hvalidating (hiff.mpr hc)
    obtain ⟨log', hlog'⟩ := hcompiling hc
    exact ⟨log, log', hlog, hlog'⟩
  · have hv := hagree.eq_inBuild hc hdecode hlowering
    obtain ⟨log, hlog⟩ := hvalidating hv
    obtain ⟨log', hlog'⟩ := hcompiling hc
    exact ⟨hv, log, log', e.chain_inBuild ▸ hlog, hlog'⟩

/-- A text with letters of several bytes, of a policy with an action that does not exist. -/
def misspelt : String := "\x7b\"defaultAction\": \"SCMP_ACT_äöü\"\x7d"

theorem validate_agrees_with_compile_misspelt :
    let system : System :=
      ⟨fun _ => .ok (.file misspelt.toUTF8.data.toList), .ofMode none [], none⟩
    let e := PolicyError.inDefaultAction (.invalidAction "SCMP_ACT_äöü")
    (compile system "policy" false).result = .error e ∧
      (validate system "policy").result = .error (.inBuild e) := by
  intro system e
  have hcompile : (compile system "policy" false).result = .error e := by decide +kernel
  refine ⟨hcompile, ?_⟩
  exact ((@validate_agrees_with_compile system "policy" misspelt rfl false false false).2.2.2 e hcompile
    (by decide) (by decide)).1

end CommandLine

end SyscallPolicy
