import SyscallPolicy.Proofs.Filter.Reordering
import SyscallPolicy.Proofs.Policy.Acceptance
import SyscallPolicy.Proofs.Policy.Meaning

/-! Policies with the same entries in another order. Whether they are accepted and lowered, how long
their programs are and which kind of verdict a call gets does not depend on the order. -/
namespace SyscallPolicy.Policy
open Bpf (Call Program)
open Kernel (Thread)

/-- The same default action, architectures and entries, these in whatever order. -/
structure Reorders (policy other : Policy) : Prop where
  defaultAction_eq : policy.defaultAction = other.defaultAction
  architectures_eq : policy.architectures = other.architectures
  syscalls_perm : policy.syscalls.Perm other.syscalls

namespace Reorders
variable {resolve : Resolver} {policy other : Policy} {call : Call}

theorem defaultVerdict?_eq (h : policy.Reorders other) :
    policy.defaultVerdict? = other.defaultVerdict? := by
  rw [defaultVerdict?, defaultVerdict?, h.defaultAction_eq]

theorem isAcceptable_iff (h : policy.Reorders other) :
    policy.IsAcceptable resolve ↔ other.IsAcceptable resolve := by
  simp only [IsAcceptable, h.defaultVerdict?_eq, h.architectures_eq, h.syscalls_perm.mem_iff]

theorem mem_entries_iff (h : policy.Reorders other) {entry : Entry} :
    entry ∈ policy.entries ↔ entry ∈ other.entries := by
  rw [mem_entries, mem_entries, h.syscalls_perm.mem_iff]

theorem mem_candidates_iff (h : policy.Reorders other) {v : Verdict} :
    v ∈ policy.candidates resolve call ↔ v ∈ other.candidates resolve call := by
  simp only [mem_candidates, h.mem_entries_iff, h.defaultVerdict?_eq]

theorem of_build {filter filter' : Filter} (h : policy.Reorders other)
    (hbuild : (policy.build resolve).result = .ok filter)
    (hbuild' : (other.build resolve).result = .ok filter') : filter.Reorders filter' := by
  obtain ⟨-, -, hdefault, hrules⟩ := of_build_eq_ok hbuild
  obtain ⟨-, -, hdefault', hrules'⟩ := of_build_eq_ok hbuild'
  rw [h.defaultVerdict?_eq] at hdefault
  refine ⟨Option.some.inj (hdefault.symm.trans hdefault'), ?_⟩
  rw [hrules, hrules']
  exact h.syscalls_perm.flatMap_right _

end Reorders

/-- Where more than one verdict is up for a call, each of them is that of an entry. -/
theorem exists_entry_of_ne {resolve : Resolver} {policy : Policy} {call : Call} {v w : Verdict}
    (hv : v ∈ policy.candidates resolve call) (hw : w ∈ policy.candidates resolve call)
    (hne : v ≠ w) :
    ∃ entry ∈ policy.entries, entry.applies resolve call = true ∧ entry.verdict? = some v := by
  rcases mem_candidates.mp hv with hmatches | ⟨hdefault, hnone⟩
  · exact hmatches
  · rcases mem_candidates.mp hw with ⟨entry, hentry, happlies, -⟩ | ⟨hdefault', -⟩
    · rw [hnone entry hentry] at happlies
      cases happlies
    · exact absurd (Option.some.inj (hdefault.symm.trans hdefault')) hne

/-- The order of its entries decides neither whether a policy is accepted nor whether its filter is
lowered nor how long the programs are. Nor does it decide the kind of verdict that a call gets. It
can make a difference to the code of the verdict, and only if entries that match the call have
different ones. -/
theorem Reorders.decides_alike {policy other : Policy} (h : policy.Reorders other)
    (resolve : Resolver) :
    ((∃ filter, (policy.build resolve).result = .ok filter) ↔
      ∃ filter, (other.build resolve).result = .ok filter) ∧
    ∀ filter filter', (policy.build resolve).result = .ok filter →
      (other.build resolve).result = .ok filter' →
      ((∃ programs, filter.lower.result = .ok programs) ↔
        ∃ programs, filter'.lower.result = .ok programs) ∧
      ∀ programs programs', filter.lower.result = .ok programs →
        filter'.lower.result = .ok programs' →
        (programs.map List.length).Perm (programs'.map List.length) ∧
        ∀ (call : Call) (thread thread' : Thread),
          thread.layers.map (·.program) = programs.reverse →
          thread'.layers.map (·.program) = programs'.reverse →
          (thread.verdict call).rank = (thread'.verdict call).rank ∧
          (thread.verdict call ≠ thread'.verdict call →
            (∃ entry ∈ policy.entries, entry.applies resolve call = true ∧
              entry.verdict? = some (thread.verdict call)) ∧
            ∃ entry ∈ policy.entries, entry.applies resolve call = true ∧
              entry.verdict? = some (thread'.verdict call)) := by
  refine ⟨by rw [exists_build_iff, exists_build_iff, h.isAcceptable_iff], ?_⟩
  intro filter filter' hbuild hbuild'
  have hs := (of_build_eq_ok hbuild).2.1.sound
  have hs' := (of_build_eq_ok hbuild').2.1.sound
  have hfilters := h.of_build hbuild hbuild'
  refine ⟨⟨fun ⟨_, hlower⟩ => hfilters.exists_lower hs hs' hlower,
    fun ⟨_, hlower⟩ => hfilters.symm.exists_lower hs' hs hlower⟩, ?_⟩
  intro programs programs' hlower hlower'
  have hlengths := hfilters.lengths_perm hs hs' hlower hlower'
  refine ⟨hlengths, fun call thread thread' hlayers hlayers' => ?_⟩
  by_cases hnative : call.architecture = Call.nativeArchitecture
  · have hv := decides_verdict hbuild hlower hlayers hnative
    have hw := (decides_verdict hbuild' hlower' hlayers' hnative).congr
      fun _ => h.mem_candidates_iff.symm
    refine ⟨Nat.le_antisymm (hw.rank_le _ hv.mem) (hv.rank_le _ hw.mem), fun hne => ?_⟩
    exact ⟨exists_entry_of_ne hv.mem hw.mem hne, exists_entry_of_ne hw.mem hv.mem hne.symm⟩
  · -- Neither thread depends on more than whether there is a program.
    have hlength : programs.length = programs'.length := by
      simpa only [List.length_map] using hlengths.length_eq
    have hnil : programs = [] ↔ programs' = [] := by
      rw [← List.length_eq_zero_iff, hlength, List.length_eq_zero_iff]
    have heq : thread.verdict call = thread'.verdict call := by
      rw [hs.verdict_foreign hlower hnative hlayers, hs'.verdict_foreign hlower' hnative hlayers']
      simp only [hnil]
    exact ⟨by rw [heq], fun hne => absurd heq hne⟩

/-- Two codes for one call, and rules with and without conditions for another. -/
def mixed : Policy where
  defaultAction := "SCMP_ACT_KILL"
  syscalls := [
    some { name := "getpid", action := "SCMP_ACT_ERRNO", errnoRet := some 1 },
    some { name := "getpid", action := "SCMP_ACT_ERRNO", errnoRet := some 2 },
    some { name := "seccomp", action := "SCMP_ACT_LOG", args := [some ⟨0, 1, 0, "SCMP_CMP_EQ"⟩] },
    some { name := "seccomp", action := "SCMP_ACT_LOG" }]

def mixedReversed : Policy := { mixed with syscalls := mixed.syscalls.reverse }

def mixedNames : Resolver := .ofList [("getpid", 39), ("seccomp", 317)]

def mixedCall : Call := ⟨39, Call.nativeArchitecture, 0, fun _ => 0⟩

/-- Put the other way round it answers a call with the other code, but not with another kind of
verdict. -/
theorem decides_alike_reversed :
    ∃ filter filter' programs programs', (mixed.build mixedNames).result = .ok filter ∧
      (mixedReversed.build mixedNames).result = .ok filter' ∧
      filter.lower.result = .ok programs ∧ filter'.lower.result = .ok programs' ∧
      (programs.map List.length).Perm (programs'.map List.length) ∧
      Thread.verdict ⟨true, programs.reverse.map (⟨0, ·⟩)⟩ mixedCall = .errno 2 ∧
      Thread.verdict ⟨true, programs'.reverse.map (⟨0, ·⟩)⟩ mixedCall = .errno 1 ∧
      ∃ entry ∈ mixed.entries, entry.applies mixedNames mixedCall = true ∧
        entry.verdict? = some (.errno 1) := by
  have h : mixed.Reorders mixedReversed := ⟨rfl, rfl, (List.reverse_perm _).symm⟩
  obtain ⟨filter, filter', programs, programs', hbuild, hbuild', hlower, hlower', hv, hw⟩ :
      ∃ filter filter' programs programs', (mixed.build mixedNames).result = .ok filter ∧
        (mixedReversed.build mixedNames).result = .ok filter' ∧
        filter.lower.result = .ok programs ∧ filter'.lower.result = .ok programs' ∧
        Thread.verdict ⟨true, programs.reverse.map (⟨0, ·⟩)⟩ mixedCall = .errno 2 ∧
        Thread.verdict ⟨true, programs'.reverse.map (⟨0, ·⟩)⟩ mixedCall = .errno 1 := by
    refine ⟨(mixed.build mixedNames).result.toOption.getD (.empty .allow),
      (mixedReversed.build mixedNames).result.toOption.getD (.empty .allow),
      ((mixed.build mixedNames).result.toOption.getD
        (.empty .allow)).programs.toOption.getD [],
      ((mixedReversed.build mixedNames).result.toOption.getD
        (.empty .allow)).programs.toOption.getD [], ?_⟩
    decide +kernel
  obtain ⟨hlengths, hverdicts⟩ :=
    ((Reorders.decides_alike h mixedNames).2 filter filter' hbuild hbuild').2 programs programs'
      hlower hlower'
  have hentries := (hverdicts mixedCall ⟨true, programs.reverse.map (⟨0, ·⟩)⟩
    ⟨true, programs'.reverse.map (⟨0, ·⟩)⟩ (Kernel.Layer.map_program_mk _)
    (Kernel.Layer.map_program_mk _)).2 (by rw [hv, hw]; decide)
  rw [hw] at hentries
  exact ⟨filter, filter', programs, programs', hbuild, hbuild', hlower, hlower', hlengths, hv, hw,
    hentries.2⟩

end SyscallPolicy.Policy
