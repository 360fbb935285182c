import SyscallPolicy.Proofs.Filter.Meaning
import SyscallPolicy.Proofs.Kernel.Attachment

/-! A filter's own programs do not keep a thread from attaching the rest of them. -/
namespace SyscallPolicy
open Bpf (Call Program)
open Kernel (Passes Process)
open Verdict (answer answer_of_mem answer_of_not_mem)

namespace Filter
variable {filter : Filter} {call : Call} {programs : List Program}

/-- A verdict that is not marked as blocking is none that stops a `seccomp` call, or never up for
one. -/
theorem Sound.stops_answer (hs : filter.Sound) {v : Verdict}
    (hunblocked : filter.blocksSeccomp v = false)
    (hnumber : (call.number.toNat : Int) = SyscallTable.seccomp) :
    (answer (filter.candidates call) v).stops = false := by
  by_cases hmem : v ∈ filter.candidates call
  · rw [answer_of_mem hmem]
    cases hstops : v.stops with
    | false => rfl
    | true =>
      rw [blocksSeccomp, hstops, Bool.true_and] at hunblocked
      by_cases heq : v = filter.verdict
      -- A rule for `seccomp` without conditions holds, so the default verdict is not up.
      · rw [if_pos heq, List.all_eq_false] at hunblocked
        obtain ⟨rule, hrule, hconditional⟩ := hunblocked
        obtain ⟨hrule, hseccomp⟩ := List.mem_filter.mp hrule
        have hempty : rule.conditions = [] := by
          simpa [Rule.isConditional] using hconditional
        have hholds : rule.holds call = true := by
          simp [Rule.holds, hempty, hnumber, of_decide_eq_true hseccomp]
        rw [heq, hs.verdict_mem_candidates, List.any_eq_false] at hmem
        exact absurd hholds (hmem rule hrule)
      · rw [if_neg heq, List.any_eq_false] at hunblocked
        obtain ⟨rule, hrule, hholds⟩ := List.any_eq_true.mp ((mem_candidates_of_ne heq).mp hmem)
        have hseccomp : rule.number = SyscallTable.seccomp := by
          rw [Rule.holds, Bool.and_eq_true, decide_eq_true_eq, hnumber] at hholds
          exact hholds.1
        exact absurd (decide_eq_true hseccomp) (hunblocked rule hrule)
  · rw [answer_of_not_mem hmem]
    rfl

/-- Only the last program of a filter can be for a verdict that is marked as blocking. -/
theorem Sound.exists_unblocked (hs : filter.Sound) (h : filter.programs = .ok programs)
    {program : Program} (hprogram : program ∈ programs.dropLast) :
    ∃ v stage, filter.blocksSeccomp v = false ∧ filter.stage v = .ok stage ∧
      stage.program = program := by
  obtain ⟨hrel, hone⟩ := hs.programs_eq_ok h
  have hlength := hrel.length_eq
  unfold attachedVerdicts at hrel hlength
  rw [List.length_append] at hlength
  have hunblocked := List.forall₂_take
    (filter.stageVerdicts.filter (!filter.blocksSeccomp ·)).length hrel
  rw [List.take_left] at hunblocked
  have hmem : program ∈ programs.take
      (filter.stageVerdicts.filter (!filter.blocksSeccomp ·)).length := by
    rw [List.dropLast_eq_take] at hprogram
    exact List.take_subset_take_left programs (by omega) hprogram
  obtain ⟨v, hv, stage, hstage, heq⟩ := exists_mem_of_forall₂ hunblocked hmem
  refine ⟨v, stage, ?_, hstage, heq⟩
  simpa using (List.mem_filter.mp hv).2

/-- All programs of a filter but the last let every `seccomp` call through. -/
theorem Sound.passes_of_mem_dropLast (hs : filter.Sound) (h : filter.programs = .ok programs)
    (hnative : call.architecture = Call.nativeArchitecture)
    (hnumber : (call.number.toNat : Int) = SyscallTable.seccomp) :
    ∀ program ∈ programs.dropLast, Passes call program := by
  intro program hprogram
  obtain ⟨v, stage, hunblocked, hstage, rfl⟩ := hs.exists_unblocked h hprogram
  refine ⟨_, hs.run_stage hstage hnative, ?_⟩
  rw [Verdict.ofWord_word, Verdict.stops_returned]
  exact hs.stops_answer hunblocked hnumber

theorem Sound.passes_attachCall (hs : filter.Sound) (h : filter.programs = .ok programs)
    (host : Kernel.Host) (allThreads : Bool) :
    ∀ program ∈ programs.dropLast, Passes (host.attachCall allThreads) program :=
  hs.passes_of_mem_dropLast h rfl rfl

end Filter

namespace Kernel
open Process (stackSize layers_setNoNewPrivs accepts_setNoNewPrivs)

theorem Passes.allow_or_log {call : Call} {program : Program} (h : Passes call program) :
    ∃ value, program.run call = some value ∧
      (Verdict.ofWord value = .allow ∨ Verdict.ofWord value = .log) := by
  obtain ⟨value, hrun, hstops⟩ := h
  refine ⟨value, hrun, ?_⟩
  cases hverdict : Verdict.ofWord value with
  | allow => exact Or.inl rfl
  | log => exact Or.inr rfl
  | _ =>
    rw [hverdict] at hstops
    cases hstops

variable {filter : Filter} {programs : List Program}

/-- A filter is installed as a whole on top of the caller's programs if these let it renounce new
privileges and attach programs. -/
theorem install_eq {hosts : Hosts} {allThreads : Bool} {caller : Nat} {process : Process}
    (hs : filter.Sound) (hlower : filter.lower.result = .ok programs) (hne : programs ≠ [])
    (h : caller < process.threads.length) (hstep : allThreads = true → process.InStep caller)
    (hrenounce : ∀ layer ∈ (process.thread caller).layers,
      Passes (hosts 0).noNewPrivsCall layer.program)
    (hattached : ∀ n < programs.length, ∀ layer ∈ (process.thread caller).layers,
      Passes ((hosts (n + 1)).attachCall allThreads) layer.program)
    (hsize : stackSize programs + stackSize ((process.thread caller).layers.map (·.program)) ≤
      Process.maxKernelSize + Process.layerPenalty) :
    install hosts allThreads caller filter process =
      ((process.setNoNewPrivs caller).pushAll caller allThreads programs,
        ⟨filter.lower.events ++ [.installing programs.length filter.verdict],
          .returned (.ok ())⟩) := by
  have hprograms := Filter.lower_eq_ok hlower
  have hinstall := installPrograms_eq filter.verdict h hstep (hs.isAcceptable_of_mem hprograms)
    hrenounce hattached (fun n => hs.passes_attachCall hprograms (hosts n) allThreads) hsize
  obtain ⟨first, rest, rfl⟩ := List.exists_cons_of_ne_nil hne
  simp only [install, hlower, hinstall]

/-- A filter that lowers to programs can be installed as a whole on a process without filters, if
the kernel's limit allows: all programs but the last let every `seccomp` call through, and the
caller ends up under exactly the programs of the filter. -/
theorem install_attaches_programs (hreachable : filter.Reachable)
    (hlower : filter.lower.result = .ok programs) (hne : programs ≠ []) :
    (∀ program ∈ programs.dropLast, ∀ call : Call, call.architecture = Call.nativeArchitecture →
      (call.number.toNat : Int) = SyscallTable.seccomp →
        ∃ value, program.run call = some value ∧
          (Verdict.ofWord value = .allow ∨ Verdict.ofWord value = .log)) ∧
    ∀ (hosts : Hosts) (allThreads : Bool) (caller : Nat) (process : Process),
      caller < process.threads.length → (∀ thread ∈ process.threads, thread.layers = []) →
      stackSize programs ≤ Process.maxKernelSize + Process.layerPenalty →
        (install hosts allThreads caller filter process).2.result = .returned (.ok ()) ∧
        ((install hosts allThreads caller filter process).1.thread caller).layers.map (·.program) =
          programs.reverse := by
  have hs := hreachable.sound
  constructor
  · intro program hprogram call hnative hnumber
    exact (hs.passes_of_mem_dropLast (Filter.lower_eq_ok hlower) hnative hnumber program
      hprogram).allow_or_log
  · intro hosts allThreads caller process hcaller hbare hsize
    have hlayers := Process.layers_of_bare hbare
    have hstep : allThreads = true → process.InStep caller :=
      fun _ id _ => hlayers id ▸ List.nil_suffix
    have hfree : ∀ call, ∀ layer ∈ (process.thread caller).layers, Passes call layer.program := by
      intro call layer hlayer
      rw [hlayers] at hlayer
      cases hlayer
    rw [install_eq hs hlower hne hcaller hstep (hfree _) (fun _ _ => hfree _)
      (by rw [hlayers]; exact hsize)]
    refine ⟨rfl, ?_⟩
    rw [(accepts_setNoNewPrivs hcaller hstep).programs_pushAll, layers_setNoNewPrivs, hlayers]
    exact List.append_nil _

/-- A filter that answers every `seccomp` call with an error, and that has programs for two other
verdicts. -/
def sealed : Filter where
  verdict := .errno 1
  architectures := [.native]
  noNewPrivs := true
  rules := [⟨317, .errno 38, []⟩, ⟨39, .log, []⟩, ⟨1, .allow, []⟩]

/-- Calls that find their own number in each register of an argument that is not given. -/
def countingHosts : Hosts := fun n => ⟨0x1000, 0x2000, fun _ => n.toUInt64, []⟩

theorem install_attaches_sealed :
    ∃ programs, sealed.lower.result = .ok programs ∧ programs.length = 3 ∧
      (install countingHosts true 1 sealed (.fresh 2)).2.result = .returned (.ok ()) ∧
      ((install countingHosts true 1 sealed (.fresh 2)).1.thread 1).layers.map (·.program) =
        programs.reverse := by
  have hreachable : sealed.Reachable :=
    Filter.reachable_iff.mpr ⟨sealed.verdict,
      sealed.rules.map fun rule => .addRule rule.number rule.verdict, by decide +kernel⟩
  have hlower : sealed.lower.result = .ok (sealed.programs.toOption.getD []) := by
    decide +kernel
  have hne : sealed.programs.toOption.getD [] ≠ [] := by decide +kernel
  refine ⟨_, hlower, by decide +kernel, ?_⟩
  exact (install_attaches_programs hreachable hlower hne).2 _ true 1 (.fresh 2) (by decide)
    (by decide) (by decide +kernel)

end Kernel

end SyscallPolicy
