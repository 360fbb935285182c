import SyscallPolicy.Proofs.Policy.Meaning

/-! What a policy decides about one system call depends on the entries for that call, up to the
choice between codes. -/
namespace SyscallPolicy.Policy
open Bpf (Call Program)
open Kernel (Thread)
open Verdict (Decides)

variable {resolve : Resolver} {policy other : Policy} {call : Call}

/-- The entries whose name is that of a system call. -/
def entriesFor (resolve : Resolver) (policy : Policy) (number : Int) : List Entry :=
  policy.entries.filter fun entry => resolve entry.name = some number

/-- Two policies with the same default verdict and the same entries for a call have the same
verdicts up for it. -/
theorem candidates_eq_of_entriesFor (hdefault : policy.defaultVerdict? = other.defaultVerdict?)
    (hentries : policy.entriesFor resolve call.number.toNat =
      other.entriesFor resolve call.number.toNat) :
    policy.candidates resolve call = other.candidates resolve call := by
  have hmatching (p : Policy) : p.entries.filter (·.applies resolve call) =
      (p.entriesFor resolve call.number.toNat).filter (·.applies resolve call) := by
    rw [entriesFor, List.filter_filter]
    refine List.filter_congr fun entry _ => ?_
    rw [Bool.eq_iff_iff, Bool.and_eq_true, decide_eq_true_eq]
    exact ⟨fun h => ⟨h, (of_decide_eq_true h).1⟩, And.left⟩
  simp only [candidates, hmatching, hdefault, hentries]

/-- Two policies with the same default verdict and the same entries for a system call give every
such call the same kind of verdict. They can differ in its code only, and only if entries for the
call carry different codes whose programs they attach in opposite orders. -/
theorem verdict_local {filter filter' : Filter} {programs programs' : List Program}
    {thread thread' : Thread} (hbuild : (policy.build resolve).result = .ok filter)
    (hbuild' : (other.build resolve).result = .ok filter')
    (hlower : filter.lower.result = .ok programs)
    (hlower' : filter'.lower.result = .ok programs')
    (hlayers : thread.layers.map (·.program) = programs.reverse)
    (hlayers' : thread'.layers.map (·.program) = programs'.reverse)
    (hdefault : policy.defaultVerdict? = other.defaultVerdict?)
    (hentries : policy.entriesFor resolve call.number.toNat =
      other.entriesFor resolve call.number.toNat)
    (hnative : call.architecture = Call.nativeArchitecture) :
    (thread.verdict call).rank = (thread'.verdict call).rank ∧
    (thread.verdict call ≠ thread'.verdict call →
      (∃ entry ∈ policy.entries, entry.applies resolve call = true ∧
        entry.verdict? = some (thread.verdict call)) ∧
      (∃ entry ∈ policy.entries, entry.applies resolve call = true ∧
        entry.verdict? = some (thread'.verdict call)) ∧
      [thread'.verdict call, thread.verdict call].Sublist filter.attachedVerdicts ∧
      [thread.verdict call, thread'.verdict call].Sublist filter'.attachedVerdicts) := by
  have hv := decides_verdict hbuild hlower hlayers hnative
  have hw := decides_verdict hbuild' hlower' hlayers' hnative
  rw [← candidates_eq_of_entriesFor hdefault hentries] at hw
  have hrank : (thread.verdict call).rank = (thread'.verdict call).rank :=
    Nat.le_antisymm (hw.rank_le _ hv.mem) (hv.rank_le _ hw.mem)
  refine ⟨hrank, fun hne => ?_⟩
  rcases mem_candidates.mp hv.mem with hmatches | ⟨hv', hnone⟩
  · rcases mem_candidates.mp hw.mem with hmatches' | ⟨_, hnone⟩
    · exact ⟨hmatches, hmatches', hv.last _ hw.mem hrank.symm (Ne.symm hne),
        hw.last _ hv.mem hrank hne⟩
    · obtain ⟨entry, hentry, happlies, _⟩ := hmatches
      rw [hnone entry hentry] at happlies
      cases happlies
  · rcases mem_candidates.mp hw.mem with ⟨entry, hentry, happlies, _⟩ | ⟨hw', _⟩
    · rw [hnone entry hentry] at happlies
      cases happlies
    · exact absurd (Option.some.inj (hv'.symm.trans hw')) hne

/-- Two entries for one call with different codes. -/
def twoCodes : Policy where
  defaultAction := "SCMP_ACT_ALLOW"
  syscalls := [
    some { name := "getpid", action := "SCMP_ACT_ERRNO", errnoRet := some 1 },
    some { name := "getpid", action := "SCMP_ACT_ERRNO", errnoRet := some 2 }]

/-- The same after an entry for another call with the second of the codes. -/
def twoCodesLate : Policy := { twoCodes with
  syscalls := some { name := "getppid", action := "SCMP_ACT_ERRNO", errnoRet := some 2 } ::
    twoCodes.syscalls }

def identifiers : Resolver := .ofList [("getpid", 39), ("getppid", 110)]

def getpidCall : Call := ⟨39, Call.nativeArchitecture, 0, fun _ => 0⟩

theorem verdict_local_twoCodes :
    ∃ filter filter' programs programs',
      (twoCodes.build identifiers).result = .ok filter ∧
      (twoCodesLate.build identifiers).result = .ok filter' ∧
      filter.lower.result = .ok programs ∧ filter'.lower.result = .ok programs' ∧
      (Thread.verdict ⟨true, programs.reverse.map (⟨0, ·⟩)⟩ getpidCall).rank =
        (Thread.verdict ⟨true, programs'.reverse.map (⟨0, ·⟩)⟩ getpidCall).rank := by
  obtain ⟨filter, filter', programs, programs', hbuild, hbuild', hlower, hlower'⟩ :
      ∃ filter filter' programs programs',
        (twoCodes.build identifiers).result = .ok filter ∧
        (twoCodesLate.build identifiers).result = .ok filter' ∧
        filter.lower.result = .ok programs ∧ filter'.lower.result = .ok programs' := by
    refine ⟨(twoCodes.build identifiers).result.toOption.getD (.empty .allow),
      (twoCodesLate.build identifiers).result.toOption.getD (.empty .allow),
      ((twoCodes.build identifiers).result.toOption.getD
        (.empty .allow)).programs.toOption.getD [],
      ((twoCodesLate.build identifiers).result.toOption.getD
        (.empty .allow)).programs.toOption.getD [], ?_⟩
    decide +kernel
  have hlayers (programs : List Program) :
      (programs.reverse.map (Kernel.Layer.mk 0)).map (·.program) = programs.reverse := by
    rw [List.map_map]
    exact List.map_id _
  refine ⟨filter, filter', programs, programs', hbuild, hbuild', hlower, hlower', ?_⟩
  exact (verdict_local hbuild hbuild' hlower hlower' (hlayers programs) (hlayers programs') rfl
    (by decide +kernel) rfl).1

theorem verdict_twoCodes_ne :
    ∃ filter filter' programs programs',
      (twoCodes.build identifiers).result = .ok filter ∧
      (twoCodesLate.build identifiers).result = .ok filter' ∧
      filter.lower.result = .ok programs ∧ filter'.lower.result = .ok programs' ∧
      twoCodes.defaultVerdict? = twoCodesLate.defaultVerdict? ∧
      twoCodes.entriesFor identifiers 39 = twoCodesLate.entriesFor identifiers 39 ∧
      Thread.verdict ⟨true, programs.reverse.map (⟨0, ·⟩)⟩ getpidCall = .errno 2 ∧
      Thread.verdict ⟨true, programs'.reverse.map (⟨0, ·⟩)⟩ getpidCall = .errno 1 := by
  refine ⟨(twoCodes.build identifiers).result.toOption.getD (.empty .allow),
    (twoCodesLate.build identifiers).result.toOption.getD (.empty .allow),
    ((twoCodes.build identifiers).result.toOption.getD (.empty .allow)).programs.toOption.getD [],
    ((twoCodesLate.build identifiers).result.toOption.getD
      (.empty .allow)).programs.toOption.getD [], ?_⟩
  decide +kernel

end SyscallPolicy.Policy
