import SyscallPolicy.Proofs.Kernel.Installation

/-! What becomes of an install, whatever programs are attached already: nothing is attached, or a
part of the filter's programs, from the first one on. No program is ever taken off. -/
namespace SyscallPolicy.Kernel
open Bpf (Call Program)

/-- Only the error code 0 makes a call look as if it had been made. -/
theorem Fate.ofVerdict_eq_answered_zero_iff {v : Verdict} :
    Fate.ofVerdict v = .answered 0 ↔ v = .errno 0 := by
  cases v with
  | errno code =>
    simp only [Fate.ofVerdict, Fate.answered.injEq, Verdict.errno.injEq, maxErrno,
      ← UInt32.toNat_inj, UInt32.toNat_zero]
    omega
  | trace code => simp [Fate.ofVerdict, Errno.notImplemented]
  | _ => simp [Fate.ofVerdict]

namespace Thread
variable {thread own : Thread} {call : Call}

/-- More programs make a thread's verdicts no more lenient. -/
theorem rank_verdict_le
    (h : ∀ program ∈ own.layers.map (·.program), program ∈ thread.layers.map (·.program))
    (call : Call) : (own.verdict call).rank ≤ (thread.verdict call).rank := by
  unfold verdict
  rcases Verdict.strictest_eq_allow_or_mem (own.layers.map (·.verdict call)) with heq | hmem
  · rw [heq]
    exact Nat.zero_le _
  · apply Verdict.rank_le_strictest
    obtain ⟨layer, hlayer, hverdict⟩ := List.mem_map.mp hmem
    obtain ⟨other, hother, hprogram⟩ :=
      List.mem_map.mp (h layer.program (List.mem_map_of_mem hlayer))
    rw [← hverdict]
    refine List.mem_map.mpr ⟨other, hother, ?_⟩
    rw [Layer.verdict, Layer.verdict, hprogram]

/-- A program that lets a call through makes no difference to what becomes of the call. -/
theorem fate_cons {layer : Layer} (thread : Thread) (h : Passes call layer.program) :
    fate { thread with layers := layer :: thread.layers } call = thread.fate call := by
  unfold fate verdict
  rw [List.map_cons]
  rcases Verdict.strictest_cons_of_stops_eq_false h.stops_verdict
    (thread.layers.map (·.verdict call)) with heq | ⟨hcons, hrest⟩
  · rw [heq]
  · rw [Fate.ofVerdict_eq_runs_iff.mpr hcons, Fate.ofVerdict_eq_runs_iff.mpr hrest]

theorem fate_eq_answered_zero_iff :
    thread.fate call = .answered 0 ↔ thread.verdict call = .errno 0 :=
  Fate.ofVerdict_eq_answered_zero_iff

theorem fate_congr {other : Thread} (h : other.layers = thread.layers) (call : Call) :
    other.fate call = thread.fate call := by
  rw [fate, fate, verdict, verdict, h]

/-- Those of some programs whose calls to be attached are not faked: the thread's filters do not
answer them with a success. -/
def genuine (thread : Thread) (allThreads : Bool) (hosts : Hosts) : List Program → List Program
  | [] => []
  | program :: programs =>
    if thread.verdict ((hosts 0).attachCall allThreads) = .errno 0 then
      thread.genuine allThreads hosts.rest programs
    else program :: thread.genuine allThreads hosts.rest programs

section Genuine
variable {other : Thread} {allThreads : Bool} {hosts : Hosts} {programs : List Program}

theorem genuine_cons_of_faked {program : Program}
    (h : thread.fate ((hosts 0).attachCall allThreads) = .answered 0) :
    thread.genuine allThreads hosts (program :: programs) =
      thread.genuine allThreads hosts.rest programs :=
  if_pos (fate_eq_answered_zero_iff.mp h)

theorem genuine_cons_of_runs {program : Program}
    (h : thread.fate ((hosts 0).attachCall allThreads) = .runs) :
    thread.genuine allThreads hosts (program :: programs) =
      program :: thread.genuine allThreads hosts.rest programs := by
  refine if_neg fun hfaked => ?_
  rw [fate_eq_answered_zero_iff.mpr hfaked] at h
  cases h

theorem genuine_subset : thread.genuine allThreads hosts programs ⊆ programs := by
  induction programs generalizing hosts with
  | nil => exact List.Subset.refl _
  | cons program programs ih =>
    rw [genuine]
    split
    · exact List.subset_cons_of_subset _ ih
    · exact List.cons_subset_cons _ ih

theorem genuine_congr (h : ∀ n, other.fate ((hosts n).attachCall allThreads) =
    thread.fate ((hosts n).attachCall allThreads)) :
    other.genuine allThreads hosts programs = thread.genuine allThreads hosts programs := by
  induction programs generalizing hosts with
  | nil => rfl
  | cons program programs ih =>
    have hrest : other.genuine allThreads hosts.rest programs =
        thread.genuine allThreads hosts.rest programs := ih fun n => h (n + 1)
    simp only [genuine, ← fate_eq_answered_zero_iff, h 0, hrest]

theorem genuine_eq_self (h : ∀ n < programs.length,
    thread.verdict ((hosts n).attachCall allThreads) ≠ .errno 0) :
    thread.genuine allThreads hosts programs = programs := by
  induction programs generalizing hosts with
  | nil => rfl
  | cons program programs ih =>
    have hrest : thread.genuine allThreads hosts.rest programs = programs :=
      ih fun n hn => h (n + 1) (Nat.succ_lt_succ hn)
    rw [genuine, if_neg (h 0 (Nat.zero_lt_succ _)), hrest]

end Genuine

end Thread

namespace Process
variable {process next : Process} {caller : Nat} {allThreads : Bool} {attached : List Program}

theorem thread_congr (h : next.threads = process.threads) (id : Nat) :
    next.thread id = process.thread id :=
  congrArg (·.getD id {}) h

@[simp] theorem thread_die (process : Process) (caller : Nat) (death : Death) (id : Nat) :
    (process.die caller death).thread id = process.thread id := by
  cases death <;> rfl

theorem Accepts.fate_push {program : Program} (h : process.Accepts caller allThreads) {call : Call}
    (hpasses : Passes call program) :
    ((process.push caller allThreads program).thread caller).fate call =
      (process.thread caller).fate call := by
  rw [thread_push_self h.caller_lt]
  exact Thread.fate_cons _ hpasses

/-- Which calls are faked does not depend on a program that lets them through. -/
theorem Accepts.genuine_push {program : Program} {hosts : Hosts} {programs : List Program}
    (h : process.Accepts caller allThreads)
    (hpasses : programs ≠ [] → ∀ n, Passes ((hosts n).attachCall allThreads) program) :
    ((process.push caller allThreads program).thread caller).genuine allThreads hosts programs =
      (process.thread caller).genuine allThreads hosts programs := by
  by_cases hne : programs = []
  · rw [hne]
    rfl
  · exact Thread.genuine_congr fun n => h.fate_push (hpasses hne n)

/-- Processes with the same threads alive and the same programs attached to them. -/
structure Alike (process next : Process) : Prop where
  lives : ∀ id, next.Lives id ↔ process.Lives id
  layers : ∀ id, (next.thread id).layers = (process.thread id).layers

theorem Alike.refl (process : Process) : process.Alike process := ⟨fun _ => Iff.rfl, fun _ => rfl⟩

theorem alike_setNoNewPrivs (process : Process) (caller : Nat) :
    process.Alike (process.setNoNewPrivs caller) :=
  ⟨fun _ => lives_setNoNewPrivs, layers_setNoNewPrivs process caller⟩

/-- What attached programs make of a process: the caller has them on top of its own, and all other
threads share them or none does. -/
structure GrownBy (process next : Process) (caller : Nat) (allThreads : Bool)
    (attached : List Program) : Prop where
  programs : (next.thread caller).layers.map (·.program) =
    attached.reverse ++ (process.thread caller).layers.map (·.program)
  layers : attached ≠ [] → ∀ id, (next.thread id).layers =
    if id = caller ∨ allThreads = true ∧ process.Lives id then (next.thread caller).layers
    else (process.thread id).layers
  unchanged : attached = [] → ∀ id, (next.thread id).layers = (process.thread id).layers
  suffix : ∀ id, (process.thread id).layers <:+ (next.thread id).layers

theorem grownBy_pushAll (h : attached ≠ [] → process.Accepts caller allThreads)
    (hthreads : next.threads = (process.pushAll caller allThreads attached).threads) :
    process.GrownBy next caller allThreads attached := by
  have hthread := thread_congr hthreads
  by_cases hne : attached = []
  · subst hne
    have hlayers : ∀ id, (next.thread id).layers = (process.thread id).layers :=
      fun id => congrArg Thread.layers (hthread id)
    exact ⟨by rw [hlayers]; rfl, fun hne => absurd rfl hne, fun _ => hlayers,
      fun id => hlayers id ▸ List.suffix_refl _⟩
  · have haccepts := h hne
    refine ⟨?_, fun _ id => ?_, fun hnone => absurd hnone hne, fun id => ?_⟩
    · rw [hthread, haccepts.programs_pushAll]
    · rw [hthread, hthread, haccepts.layers_pushAll hne]
    · rw [hthread]
      exact haccepts.suffix_pushAll attached id

theorem GrownBy.of_alike {between : Process} (h : between.GrownBy next caller allThreads attached)
    (halike : process.Alike between) : process.GrownBy next caller allThreads attached := by
  obtain ⟨hlives, hlayers⟩ := halike
  refine ⟨?_, fun hne id => ?_, fun hnone id => ?_, fun id => ?_⟩
  · rw [h.programs, hlayers]
  · simp only [h.layers hne id, hlives, hlayers]
  · rw [h.unchanged hnone, hlayers]
  · rw [← hlayers]
    exact h.suffix id

end Process

open Process

/-- How attaching programs ends with some of them left over, by the call for the first of these. The
kernel refuses a program of a caller that it accepts programs from only if it would take the caller
over the limit. -/
inductive Ends (process : Process) (caller : Nat) (allThreads : Bool) (call : Call)
    (next : Process) : List Program → Ending (Except PolicyError Unit) → Prop
  | done : Ends process caller allThreads call next [] (.returned (.ok ()))
  | died {refused : Program} {rest : List Program} (death : Death) :
    Ends process caller allThreads call next (refused :: rest) (.died death)
  | answered {refused : Program} {rest : List Program} {code : Nat} (ne : code ≠ 0)
    (fate : (process.thread caller).fate call = .answered code) :
    Ends process caller allThreads call next (refused :: rest)
      (.returned (.error (.install (.system ⟨code⟩))))
  | refused {refused : Program} {rest : List Program} {cause : Cause}
    (runs : (process.thread caller).fate call = .runs)
    (limit : process.Accepts caller allThreads → cause = .system .outOfMemory ∧
      maxKernelSize < sizeWith (next.thread caller) refused) :
    Ends process caller allThreads call next (refused :: rest)
      (.returned (.error (.install cause)))

theorem Ends.of_push {process next : Process} {caller : Nat} {allThreads : Bool} {call : Call}
    {program : Program} {rest : List Program} {ending : Ending (Except PolicyError Unit)}
    (h : Ends (process.push caller allThreads program) caller allThreads call next rest ending)
    (hfate : rest ≠ [] → ((process.push caller allThreads program).thread caller).fate call =
      (process.thread caller).fate call) :
    Ends process caller allThreads call next rest ending := by
  cases h with
  | done => exact .done
  | died death => exact .died death
  | answered ne fate => exact .answered ne (hfate (List.cons_ne_nil _ _) ▸ fate)
  | refused runs limit =>
    exact .refused (hfate (List.cons_ne_nil _ _) ▸ runs) fun haccepts =>
      limit (haccepts.push program)

/-- Programs are attached up to the first one whose call fails, but for those whose calls are
faked. -/
theorem attachAll_spec (hosts : Hosts) {allThreads : Bool} {caller : Nat}
    {programs : List Program} (process : Process)
    (hacceptable : ∀ program ∈ programs, program.isAcceptable = true)
    (hpasses : ∀ n, ∀ program ∈ programs.dropLast,
      Passes ((hosts n).attachCall allThreads) program) :
    ∃ taken rest, programs = taken ++ rest ∧
      let attached := (process.thread caller).genuine allThreads hosts taken
      let next := (attachAll hosts allThreads caller programs process).1
      (attached ≠ [] → process.Accepts caller allThreads) ∧
      next.threads = (process.pushAll caller allThreads attached).threads ∧
      Ends process caller allThreads ((hosts taken.length).attachCall allThreads) next rest
        (attachAll hosts allThreads caller programs process).2 := by
  -- On the programs: each but the last lets all the calls through, so what becomes of a call does
  -- not depend on how many of them are attached when it is made.
  induction programs generalizing hosts process with
  | nil => exact ⟨[], [], rfl, fun h => absurd rfl h, rfl, .done⟩
  | cons program programs ih =>
    have hacceptable' : ∀ p ∈ programs, p.isAcceptable = true :=
      fun p hp => hacceptable p (List.mem_cons_of_mem program hp)
    have hpasses' : ∀ n, ∀ p ∈ programs.dropLast,
        Passes ((hosts.rest n).attachCall allThreads) p :=
      fun n p hp => hpasses (n + 1) p (mem_dropLast_cons hp)
    have hnone : Thread.genuine (process.thread caller) allThreads hosts [] ≠ [] →
        process.Accepts caller allThreads := fun h => absurd rfl h
    cases hfate : (process.thread caller).fate ((hosts 0).attachCall allThreads) with
    | threadDies =>
      refine ⟨[], program :: programs, rfl, hnone, ?_⟩
      simp only [attachAll, hfate]
      exact ⟨rfl, .died .thread⟩
    | processDies =>
      refine ⟨[], program :: programs, rfl, hnone, ?_⟩
      simp only [attachAll, hfate]
      exact ⟨rfl, .died .process⟩
    | answered code =>
      cases code with
      | zero =>
        obtain ⟨taken, rest, rfl, hspec⟩ := ih hosts.rest process hacceptable' hpasses'
        refine ⟨program :: taken, rest, rfl, ?_⟩
        simp only [attachAll, hfate, Thread.genuine_cons_of_faked hfate]
        exact hspec
      | succ code =>
        refine ⟨[], program :: programs, rfl, hnone, ?_⟩
        simp only [attachAll, hfate]
        exact ⟨rfl, .answered (Nat.succ_ne_zero code) hfate⟩
    | runs =>
      cases hattach : process.attach caller allThreads program with
      | error cause =>
        refine ⟨[], program :: programs, rfl, hnone, ?_⟩
        simp only [attachAll, hfate, hattach]
        refine ⟨rfl, .refused hfate fun haccepts => ?_⟩
        rw [haccepts.attach_eq (hacceptable program List.mem_cons_self)] at hattach
        split at hattach
        · next hsize =>
          cases hattach
          exact ⟨rfl, hsize⟩
        · cases hattach
      | ok next =>
        obtain ⟨haccepts, rfl⟩ := of_attach_eq_ok hattach
        obtain ⟨taken, rest, rfl, -, hthreads, hends⟩ :=
          ih hosts.rest (process.push caller allThreads program) hacceptable' hpasses'
        have hprogram : taken ++ rest ≠ [] → ∀ n,
            Passes ((hosts.rest n).attachCall allThreads) program := by
          intro hne n
          refine hpasses (n + 1) program ?_
          rw [List.dropLast_cons_of_ne_nil hne]
          exact List.mem_cons_self
        have hgenuine := haccepts.genuine_push fun htaken : taken ≠ [] =>
          hprogram (List.append_ne_nil_of_left_ne_nil htaken rest)
        refine ⟨program :: taken, rest, rfl, ?_⟩
        simp only [attachAll, hfate, hattach, Thread.genuine_cons_of_runs hfate]
        exact ⟨fun _ => haccepts, hgenuine ▸ hthreads, hends.of_push fun hrest =>
          haccepts.fate_push (hprogram (List.append_ne_nil_of_right_ne_nil taken hrest) _)⟩

/-- What an install of programs comes to: it changes no layers and fails, or it attaches the programs
up to the first one whose call fails, but for those whose calls are faked. -/
inductive Outcome (process next : Process) (hosts : Hosts) (allThreads : Bool) (caller : Nat)
    (ending : Ending (Except PolicyError Unit)) (programs : List Program) : Prop
  | untouched (layers : ∀ id, (next.thread id).layers = (process.thread id).layers)
      (failed : ending ≠ .returned (.ok ()))
  | grown {between : Process} {taken rest attached : List Program} (alike : process.Alike between)
      (eq : programs = taken ++ rest)
      (genuine : attached = (process.thread caller).genuine allThreads hosts.rest taken)
      (accepts : attached ≠ [] → between.Accepts caller allThreads)
      (grownBy : process.GrownBy next caller allThreads attached)
      (ends : Ends between caller allThreads ((hosts (taken.length + 1)).attachCall allThreads) next
        rest ending)

section Install
variable {hosts : Hosts} {allThreads : Bool} {caller : Nat} {process : Process} {filter : Filter}
  {programs : List Program}

theorem installPrograms_outcome (verdict : Verdict)
    (hacceptable : ∀ program ∈ programs, program.isAcceptable = true)
    (hpasses : ∀ n, ∀ program ∈ programs.dropLast,
      Passes ((hosts n).attachCall allThreads) program) :
    Outcome process (installPrograms hosts allThreads caller verdict programs process).1 hosts
      allThreads caller (installPrograms hosts allThreads caller verdict programs process).2.result
      programs := by
  have hattach (between : Process) (halike : process.Alike between) :
      Outcome process (attachAll hosts.rest allThreads caller programs between).1 hosts allThreads
        caller (attachAll hosts.rest allThreads caller programs between).2 programs := by
    obtain ⟨taken, rest, heq, haccepts, hthreads, hends⟩ :=
      attachAll_spec hosts.rest between hacceptable fun n => hpasses (n + 1)
    have hgenuine : (process.thread caller).genuine allThreads hosts.rest taken =
        (between.thread caller).genuine allThreads hosts.rest taken :=
      Thread.genuine_congr fun n => Thread.fate_congr (halike.layers caller).symm _
    exact .grown halike heq hgenuine.symm haccepts
      ((grownBy_pushAll haccepts hthreads).of_alike halike) hends
  unfold installPrograms
  cases hfate : (process.thread caller).fate (hosts 0).noNewPrivsCall with
  | threadDies => apply Outcome.untouched <;> simp
  | processDies => apply Outcome.untouched <;> simp
  | answered code =>
    cases code with
    | zero => exact hattach process (.refl process)
    | succ code => apply Outcome.untouched <;> simp
  | runs => exact hattach (process.setNoNewPrivs caller) (alike_setNoNewPrivs process caller)

theorem install_outcome (hs : filter.Sound) (hlower : filter.lower.result = .ok programs) :
    Outcome process (install hosts allThreads caller filter process).1 hosts allThreads caller
      (install hosts allThreads caller filter process).2.result programs := by
  have hprograms := Filter.lower_eq_ok hlower
  cases programs with
  | nil =>
    simp only [install, hlower]
    have hnone : ([] : List Program) ≠ [] → process.Accepts caller allThreads :=
      fun h => absurd rfl h
    have hgenuine : [] = (process.thread caller).genuine allThreads hosts.rest [] := rfl
    exact .grown (.refl process) rfl hgenuine hnone (grownBy_pushAll hnone rfl) .done
  | cons program programs =>
    simp only [install, hlower]
    exact installPrograms_outcome filter.verdict (hs.isAcceptable_of_mem hprograms)
      fun n => hs.passes_attachCall hprograms (hosts n) allThreads

/-- An install either fails before anything is attached, or has an outcome. -/
theorem install_cases (hs : filter.Sound) :
    ((install hosts allThreads caller filter process).1 = process ∧
      (install hosts allThreads caller filter process).2.result ≠ .returned (.ok ())) ∨
    ∃ programs, filter.lower.result = .ok programs ∧
      Outcome process (install hosts allThreads caller filter process).1 hosts allThreads caller
        (install hosts allThreads caller filter process).2.result programs := by
  cases hlower : filter.lower.result with
  | error e =>
    left
    simp [install, hlower]
  | ok programs => exact Or.inr ⟨programs, rfl, install_outcome hs hlower⟩

/-- No install takes a program off a thread. -/
theorem suffix_install (hs : filter.Sound) (id : Nat) :
    (process.thread id).layers <:+
      ((install hosts allThreads caller filter process).1.thread id).layers := by
  rcases install_cases hs with ⟨heq, -⟩ | ⟨programs, -, houtcome⟩
  · exact heq.symm ▸ List.suffix_refl _
  · cases houtcome with
    | untouched layers failed => exact (layers id).symm ▸ List.suffix_refl _
    | grown alike eq genuine accepts grownBy ends => exact grownBy.suffix id

theorem suffix_installIfLiving (hs : filter.Sound) (id : Nat) :
    (process.thread id).layers <:+
      ((installIfLiving hosts allThreads caller filter process).thread id).layers := by
  unfold installIfLiving
  split
  · exact suffix_install hs id
  · exact List.suffix_refl _

/-- An install that ends without an error attaches all programs of the filter but for those whose
calls are faked. -/
theorem grownBy_install (hs : filter.Sound)
    (hok : (install hosts allThreads caller filter process).2.result = .returned (.ok ())) :
    ∃ programs, filter.lower.result = .ok programs ∧
      process.GrownBy (install hosts allThreads caller filter process).1 caller allThreads
        ((process.thread caller).genuine allThreads hosts.rest programs) := by
  rcases install_cases hs with ⟨-, hfailed⟩ | ⟨programs, hlower, houtcome⟩
  · exact absurd hok hfailed
  · refine ⟨programs, hlower, ?_⟩
    cases houtcome with
    | untouched layers failed => exact absurd hok failed
    | grown alike eq genuine accepts grownBy ends =>
      rw [hok] at ends
      cases ends
      rwa [eq, List.append_nil, ← genuine]

end Install

end SyscallPolicy.Kernel
