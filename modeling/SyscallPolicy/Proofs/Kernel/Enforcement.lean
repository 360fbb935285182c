import SyscallPolicy.Proofs.Kernel.Outcome
import SyscallPolicy.Proofs.Policy.Meaning

/-! Installs one after the other: a policy that has been installed stays enforced. -/
namespace SyscallPolicy.Kernel
open Bpf (Call Program)
open Verdict (Decides)

/-- A filter to be installed by one of the threads of a process. -/
structure Attempt where
  hosts : Hosts
  allThreads : Bool
  caller : Nat
  filter : Filter
  reachable : filter.Reachable

/-- The process after attempts one after the other, whether or not they succeed, by the threads that
still live when it is their turn. -/
def Process.after (process : Process) (attempts : List Attempt) : Process :=
  attempts.foldl (fun process attempt =>
    installIfLiving attempt.hosts attempt.allThreads attempt.caller attempt.filter process) process

theorem Process.after_concat (process : Process) (attempts : List Attempt) (attempt : Attempt) :
    process.after (attempts ++ [attempt]) =
      installIfLiving attempt.hosts attempt.allThreads attempt.caller attempt.filter
        (process.after attempts) := List.foldl_append

theorem Process.suffix_after (process : Process) (attempts : List Attempt) (id : Nat) :
    (process.thread id).layers <:+ ((process.after attempts).thread id).layers := by
  induction attempts generalizing process with
  | nil => exact List.suffix_refl _
  | cons attempt attempts ih =>
    exact (suffix_installIfLiving attempt.reachable.sound id).trans (ih _)

/-- The programs of a policy decide as the policy says, and more programs make the verdict no more
lenient. -/
theorem exists_decides_rank_le {resolve : Resolver} {policy : Policy} {filter : Filter}
    {programs : List Program} (hbuild : (policy.build resolve).result = .ok filter)
    (hlower : filter.lower.result = .ok programs) {thread : Thread}
    (hmem : ∀ program ∈ programs, program ∈ thread.layers.map (·.program)) {call : Call}
    (hnative : call.architecture = Call.nativeArchitecture) :
    ∃ v, Decides filter.attachedVerdicts (policy.candidates resolve call) v ∧
      v.rank ≤ (thread.verdict call).rank := by
  let own : Thread := ⟨true, programs.reverse.map (⟨0, ·⟩)⟩
  have hlayers : own.layers.map (·.program) = programs.reverse := by
    rw [List.map_map]
    exact List.map_id _
  refine ⟨own.verdict call, Policy.decides_verdict hbuild hlower hlayers hnative, ?_⟩
  apply Thread.rank_verdict_le
  rw [hlayers]
  exact fun program hprogram => hmem program (List.mem_reverse.mp hprogram)

/-- After an install without an error, the programs of the policy are attached to the caller for
good, but for those whose calls the programs that were attached already had faked. Where none was
faked, every verdict is as strict as the policy's own. -/
theorem install_ok_enforces {resolve : Resolver} {policy : Policy} {filter : Filter}
    {start : Process} {earlier later : List Attempt} {hosts : Hosts} {allThreads : Bool}
    {caller : Nat} (hbuild : (policy.build resolve).result = .ok filter)
    (hok : (install hosts allThreads caller filter (start.after earlier)).2.result =
      .returned (.ok ())) :
    ∃ programs, filter.lower.result = .ok programs ∧
      let process := start.after earlier
      let installed := (install hosts allThreads caller filter process).1
      let thread := (installed.after later).thread caller
      let attached := (process.thread caller).genuine allThreads hosts.rest programs
      (installed.thread caller).layers.map (·.program) =
        attached.reverse ++ (process.thread caller).layers.map (·.program) ∧
      (attached = [] → ∀ id, (installed.thread id).layers = (process.thread id).layers) ∧
      attached.reverse <:+: thread.layers.map (·.program) ∧
      (∀ (call : Call) (own : Thread), own.layers.map (·.program) = attached.reverse →
        (own.verdict call).rank ≤ (thread.verdict call).rank) ∧
      ((∀ n < programs.length,
          (process.thread caller).verdict ((hosts (n + 1)).attachCall allThreads) ≠ .errno 0) →
        attached = programs ∧ ∀ call : Call, call.architecture = Call.nativeArchitecture →
          ∃ v, Decides filter.attachedVerdicts (policy.candidates resolve call) v ∧
            v.rank ≤ (thread.verdict call).rank) := by
  have hs := (Policy.of_build_eq_ok hbuild).2.1.sound
  obtain ⟨programs, hlower, hgrown⟩ := grownBy_install hs hok
  refine ⟨programs, hlower, ?_⟩
  intro process installed thread attached
  have hattached : attached.reverse <:+: thread.layers.map (·.program) := by
    refine List.IsInfix.trans ?_ ((installed.suffix_after later caller).map _).isInfix
    rw [hgrown.programs]
    exact (List.prefix_append _ _).isInfix
  have hmem : ∀ program ∈ attached, program ∈ thread.layers.map (·.program) :=
    fun program hprogram => hattached.subset (List.mem_reverse.mpr hprogram)
  refine ⟨hgrown.programs, hgrown.unchanged, hattached, fun call own hown => ?_,
    fun hgenuine => ?_⟩
  · apply Thread.rank_verdict_le
    rw [hown]
    exact fun program hprogram => hmem program (List.mem_reverse.mp hprogram)
  · have hall : attached = programs := Thread.genuine_eq_self hgenuine
    exact ⟨hall, fun call hnative => exists_decides_rank_le hbuild hlower (hall ▸ hmem) hnative⟩

/-- What system calls see where it does not matter. -/
def someHost : Host := ⟨0x1000, 0x2000, fun _ => 0, []⟩

/-- A filter with two programs, neither of which stops calls that attach programs. -/
def watching : Filter where
  verdict := .allow
  architectures := [.native]
  noNewPrivs := true
  rules := [⟨110, .errno 1, []⟩, ⟨39, .log, []⟩]

theorem reachable_watching : watching.Reachable :=
  Filter.reachable_iff.mpr ⟨.allow, [.addRule 110 (.errno 1), .addRule 39 .log], by decide +kernel⟩

/-- A policy under which the call that attaches programs is not made and yet answers that it was. -/
def faking : Policy where
  defaultAction := "SCMP_ACT_ALLOW"
  syscalls := [some { name := "seccomp", action := "SCMP_ACT_ERRNO", errnoRet := some 0 }]

/-- A policy against one system call. -/
def refusing : Policy where
  defaultAction := "SCMP_ACT_ALLOW"
  syscalls := [some { name := "getppid", action := "SCMP_ACT_ERRNO" }]

/-- A policy with a program for each of two system calls. -/
def restricting : Policy where
  defaultAction := "SCMP_ACT_ALLOW"
  syscalls := [some { name := "getppid", action := "SCMP_ACT_ERRNO" },
    some { name := "getpid", action := "SCMP_ACT_LOG" }]

/-- A filter that answers a call that attaches a program if a register that the call does not use
holds the number 2. -/
def distracting (code : UInt32) : Filter where
  verdict := .allow
  architectures := [.native]
  noNewPrivs := true
  rules := [⟨317, .errno code, [⟨⟨3, by decide⟩, .eq, 2⟩]⟩]

theorem reachable_distracting (code : UInt32) : (distracting code).Reachable :=
  let leftOver : Condition := ⟨⟨3, by decide⟩, .eq, 2⟩
  Filter.reachable_iff.mpr ⟨.allow, [.addConditionalRule 317 (.errno code) [leftOver]], rfl⟩

/-- A process whose thread is under this filter. -/
def distracted (code : UInt32) : Process :=
  (Process.fresh 1).after [⟨someHost, false, 0, distracting code, reachable_distracting code⟩]

/-- What is left in a register decides whether the second of two programs is attached. -/
theorem install_ok_enforces_restricting :
    ∃ filter first second,
      (restricting.build (.ofList [("getppid", 110), ("getpid", 39)])).result = .ok filter ∧
      filter.lower.result = .ok [first, second] ∧
      ((install countingHosts false 0 filter (distracted 0)).2.result = .returned (.ok ()) ∧
        ((install countingHosts false 0 filter (distracted 0)).1.thread 0).layers.map (·.program) =
          first :: ((distracted 0).thread 0).layers.map (·.program)) ∧
      (install someHost false 0 filter (distracted 0)).2.result = .returned (.ok ()) ∧
        [second, first] <:+: (((install someHost false 0 filter (distracted 0)).1.after
          [⟨someHost, false, 0, distracting 0, reachable_distracting 0⟩]).thread 0).layers.map
            (·.program) := by
  obtain ⟨filter, first, second, hbuild, hlower, hcounting, hsome, hfaked, hgenuine⟩ :
      ∃ filter first second,
        (restricting.build (.ofList [("getppid", 110), ("getpid", 39)])).result = .ok filter ∧
        filter.lower.result = .ok [first, second] ∧
        (install countingHosts false 0 filter (distracted 0)).2.result = .returned (.ok ()) ∧
        (install someHost false 0 filter (distracted 0)).2.result = .returned (.ok ()) ∧
        ((distracted 0).thread 0).genuine false countingHosts.rest [first, second] = [first] ∧
        ((distracted 0).thread 0).genuine false (Hosts.rest someHost) [first, second] =
          [first, second] := by
    let built := (restricting.build (.ofList [("getppid", 110), ("getpid", 39)])).result
    let filter := built.toOption.getD (.empty .allow)
    exact ⟨filter, (filter.programs.toOption.getD []).headI,
      (filter.programs.toOption.getD []).tail.headI, by decide +kernel⟩
  have hlowered : ∀ programs, filter.lower.result = .ok programs → programs = [first, second] :=
    fun programs hprograms => by rw [hlower] at hprograms; cases hprograms; rfl
  refine ⟨filter, first, second, hbuild, hlower, ⟨hcounting, ?_⟩, hsome, ?_⟩
  · obtain ⟨programs, hprograms, hhalf, -⟩ :=
      @install_ok_enforces _ _ _ (.fresh 1)
        [⟨someHost, false, 0, distracting 0, reachable_distracting 0⟩] [] _ _ _ hbuild hcounting
    rw [hlowered programs hprograms] at hhalf
    exact hhalf.trans (congrArg (·.reverse ++ _) hfaked)
  · obtain ⟨programs, hprograms, -, -, hwhole, -⟩ :=
      @install_ok_enforces _ _ _ (.fresh 1)
        [⟨someHost, false, 0, distracting 0, reachable_distracting 0⟩]
        [⟨someHost, false, 0, distracting 0, reachable_distracting 0⟩] _ _ _ hbuild hsome
    rw [hlowered programs hprograms] at hwhole
    exact (congrArg (·.reverse <:+: _) hgenuine).mp hwhole

theorem install_under_faking :
    ∃ filter other programs,
      (faking.build (.ofList [("seccomp", 317)])).result = .ok other ∧
      (refusing.build (.ofList [("getppid", 110)])).result = .ok filter ∧
      filter.lower.result = .ok programs ∧ programs.length = 1 ∧
      let faked := (install someHost false 0 other (.fresh 1)).1
      let thread := (install someHost false 0 filter faked).1.thread 0
      (install someHost false 0 filter faked).2.result = .returned (.ok ()) ∧
      (∀ program ∈ programs, program ∉ thread.layers.map (·.program)) ∧
      Thread.verdict ⟨true, programs.reverse.map (⟨0, ·⟩)⟩
        ⟨110, Call.nativeArchitecture, 0, fun _ => 0⟩ = .errno 1 ∧
      thread.verdict ⟨110, Call.nativeArchitecture, 0, fun _ => 0⟩ = .allow := by
  refine ⟨(refusing.build (.ofList [("getppid", 110)])).result.toOption.getD (.empty .allow),
    (faking.build (.ofList [("seccomp", 317)])).result.toOption.getD (.empty .allow),
    ((refusing.build (.ofList [("getppid", 110)])).result.toOption.getD
      (.empty .allow)).programs.toOption.getD [], ?_⟩
  decide +kernel

end SyscallPolicy.Kernel
