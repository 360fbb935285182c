import SyscallPolicy.Proofs.Kernel.Refusal
import SyscallPolicy.Proofs.Kernel.Threads

/-! What a thread finds out about the support for filters, when the filters that it is under answer
in the kernel's place. -/
namespace SyscallPolicy.Kernel
open Bpf (Call Program)
open Verdict (answer)

/-- A program is one of those made of the filter of some attempt. -/
def IsProgramOf (attempts : List Attempt) (program : Program) : Prop :=
  ∃ attempt ∈ attempts, ∃ programs,
    attempt.filter.lower.result = .ok programs ∧ program ∈ programs

/-- Attached programs are programs of attempts. -/
def Process.StemsFrom (process : Process) (attempts : List Attempt) : Prop :=
  ∀ id, ∀ layer ∈ (process.thread id).layers, IsProgramOf attempts layer.program

section Origin
variable {process : Process} {attempts : List Attempt}

theorem IsProgramOf.concat {program : Program} (h : IsProgramOf attempts program)
    (attempt : Attempt) : IsProgramOf (attempts ++ [attempt]) program := by
  obtain ⟨earlier, hearlier, hspec⟩ := h
  exact ⟨earlier, List.mem_append_left _ hearlier, hspec⟩

theorem Process.StemsFrom.install (h : process.StemsFrom attempts) (attempt : Attempt) :
    (installIfLiving attempt.hosts attempt.allThreads attempt.caller attempt.filter
      process).StemsFrom (attempts ++ [attempt]) := by
  have hold : process.StemsFrom (attempts ++ [attempt]) :=
    fun id layer hlayer => (h id layer hlayer).concat attempt
  have hsame {next : Process} (hlayers : ∀ id, (next.thread id).layers = (process.thread id).layers) :
      next.StemsFrom (attempts ++ [attempt]) :=
    fun id layer hlayer => hold id layer (hlayers id ▸ hlayer)
  unfold installIfLiving
  split
  · rcases install_cases attempt.reachable.sound with ⟨heq, -⟩ | ⟨programs, hlower, houtcome⟩
    · rwa [heq]
    · cases houtcome with
      | untouched layers failed => exact hsame layers
      | @grown between taken rest attached halike heq hgenuine haccepts hgrown hends =>
        by_cases hne : attached = []
        · exact hsame (hgrown.unchanged hne)
        -- The caller's programs first: where other threads get some, they get the caller's.
        have hcaller : ∀ program ∈ attached.reverse ++
            (process.thread attempt.caller).layers.map (·.program),
            IsProgramOf (attempts ++ [attempt]) program := by
          intro program hprogram
          rcases List.mem_append.mp hprogram with hnew | hearlier
          · have hmem : attempt ∈ attempts ++ [attempt] := by simp
            have htaken : program ∈ taken := by
              rw [List.mem_reverse, hgenuine] at hnew
              exact Thread.genuine_subset hnew
            exact ⟨attempt, hmem, programs, hlower, heq ▸ List.mem_append_left _ htaken⟩
          · obtain ⟨layer, hlayer, rfl⟩ := List.mem_map.mp hearlier
            exact hold _ layer hlayer
        rw [← hgrown.programs] at hcaller
        intro id layer hlayer
        rw [hgrown.layers hne] at hlayer
        split at hlayer
        · exact hcaller _ (List.mem_map_of_mem hlayer)
        · exact hold id layer hlayer
  · exact hold

theorem Process.stemsFrom_after {start : Process} (h : start.StemsFrom [])
    (attempts : List Attempt) : (start.after attempts).StemsFrom attempts := by
  induction attempts using List.reverseRecOn with
  | nil => exact h
  | append_singleton attempts attempt ih =>
    rw [Process.after_concat]
    exact ih.install attempt

theorem Process.stemsFrom_fresh (count : Nat) : (Process.fresh count).StemsFrom [] := by
  intro id layer hlayer
  rw [layers_fresh] at hlayer
  cases hlayer

end Origin

/-- What a thread's filters say to a call is up for the call under a filter that was installed,
unless they allow it. -/
theorem Process.StemsFrom.verdict {process : Process} {attempts : List Attempt}
    (h : process.StemsFrom attempts) {call : Call}
    (hnative : call.architecture = Call.nativeArchitecture) (id : Nat)
    (hne : (process.thread id).verdict call ≠ .allow) :
    ∃ attempt ∈ attempts, ∃ v ∈ attempt.filter.candidates call,
      (process.thread id).verdict call = v.returned := by
  have hmem : (process.thread id).verdict call ∈
      (process.thread id).layers.map (·.verdict call) :=
    (Verdict.strictest_eq_allow_or_mem _).resolve_left hne
  obtain ⟨layer, hlayer, hverdict⟩ := List.mem_map.mp hmem
  obtain ⟨attempt, hattempt, programs, hlower, hprogram⟩ := h id layer hlayer
  obtain ⟨v, _, hrun⟩ :=
    exists_mem_of_forall₂ (attempt.reachable.sound.run_programs hlower) hprogram
  have hanswer : (process.thread id).verdict call =
      (answer (attempt.filter.candidates call) v).returned := by
    rw [← hverdict, Layer.verdict, hrun call hnative, Option.elim_some, Verdict.ofWord_word]
  by_cases hup : v ∈ attempt.filter.candidates call
  · rw [Verdict.answer_of_mem hup] at hanswer
    exact ⟨attempt, hattempt, v, hup, hanswer⟩
  · rw [Verdict.answer_of_not_mem hup] at hanswer
    exact absurd hanswer hne

section Detect
variable {host : Host} {hosts : Hosts} {thread : Thread} {support : Support}

theorem of_detect (h : detect hosts thread = .returned support) :
    detectMode (hosts 0) thread = .returned support.mode ∧
      support.available = support.mode.isSome := by
  unfold detect at h
  cases hmode : detectMode (hosts 0) thread with
  | died death =>
    rw [hmode] at h
    cases h
  | returned mode =>
    rw [hmode] at h
    cases hactions : detectActions (hosts 1) thread with
    | died death =>
      rw [hactions] at h
      cases h
    | returned actions =>
      rw [hactions] at h
      cases h
      exact ⟨rfl, rfl⟩

/-- A thread without filters is allowed everything. -/
theorem Thread.verdict_of_bare (h : thread.layers = []) (call : Call) :
    thread.verdict call = .allow := by
  rw [Thread.verdict, h]
  rfl

/-- The verdict on a thread's question for its mode, and whether it has filters at all, decide which
mode it is told. -/
theorem detectMode_spec {mode : Option Mode} (h : detectMode host thread = .returned mode) :
    (mode = none ↔ (∃ code, thread.verdict host.modeCall = .trace code) ∨
      ∃ code, code ≠ 0 ∧ thread.verdict host.modeCall = .errno code) ∧
    (mode = some .filter ↔ thread.layers ≠ [] ∧
      (thread.verdict host.modeCall = .allow ∨ thread.verdict host.modeCall = .log)) ∧
    (mode = some .disabled ↔ thread.layers = [] ∨ thread.verdict host.modeCall = .errno 0) ∧
    mode ≠ some .strict := by
  have hbare : thread.layers = [] → thread.verdict host.modeCall = .allow :=
    fun hlayers => thread.verdict_of_bare hlayers _
  simp only [detectMode, Thread.fate] at h
  cases hverdict : thread.verdict host.modeCall with
  | allow =>
    rw [hverdict] at h
    cases h
    cases hlayers : thread.layers <;> simp
  | log =>
    have hne : thread.layers ≠ [] := fun hlayers => by
      cases hverdict.symm.trans (hbare hlayers)
    rw [hverdict] at h
    cases h
    simp [hne]
  | trace code =>
    have hne : thread.layers ≠ [] := fun hlayers => by
      cases hverdict.symm.trans (hbare hlayers)
    rw [hverdict] at h
    cases h
    simp [hne]
  | errno code =>
    have hne : thread.layers ≠ [] := fun hlayers => by
      cases hverdict.symm.trans (hbare hlayers)
    rw [hverdict] at h
    by_cases hcode : code = 0
    · subst hcode
      cases h
      simp
    · have hanswer : Fate.ofVerdict (.errno code) = .answered (min code.toNat maxErrno) := rfl
      cases hmin : min code.toNat maxErrno with
      | zero =>
        rw [hmin] at hanswer
        cases Fate.ofVerdict_eq_answered_zero_iff.mp hanswer
        exact absurd rfl hcode
      | succ e =>
        rw [hanswer, hmin] at h
        cases h
        simp [hne, hcode]
  | trap =>
    rw [hverdict] at h
    cases h
  | killThread =>
    rw [hverdict] at h
    cases h
  | killProcess =>
    rw [hverdict] at h
    cases h

end Detect

/-- After installs one after the other, successful or not, a thread that finds out about its support
is told that there is none if its filters answer its question with an error, that it has no filter
if it has none or its filters answer so, and that it has one if they let the question through.
Nothing ever tells it that it is under the strict mode. What its filters answer, some filter that
was installed says. -/
theorem detect_under_filters {count id : Nat} {attempts : List Attempt} {hosts : Hosts}
    {support : Support}
    (h : detect hosts (((Process.fresh count).after attempts).thread id) = .returned support) :
    let thread := ((Process.fresh count).after attempts).thread id
    let reply := thread.verdict (hosts 0).modeCall
    (support.mode = none ↔
      (∃ code, reply = .trace code) ∨ ∃ code, code ≠ 0 ∧ reply = .errno code) ∧
    (support.mode = some .filter ↔ thread.layers ≠ [] ∧ (reply = .allow ∨ reply = .log)) ∧
    (support.mode = some .disabled ↔ thread.layers = [] ∨ reply = .errno 0) ∧
    support.mode ≠ some .strict ∧
    (support.available = false ↔ support.mode = none) ∧
    (support.canInstall = false ↔ support.mode = none) ∧
    (reply ≠ .allow → ∃ attempt ∈ attempts, ∃ v ∈ attempt.filter.candidates (hosts 0).modeCall,
      reply = v.returned) := by
  intro thread reply
  obtain ⟨hmode, havailable⟩ := of_detect h
  obtain ⟨hnone, hfilter, hdisabled, hstrict⟩ := detectMode_spec hmode
  refine ⟨hnone, hfilter, hdisabled, hstrict, ?_, ?_, fun hne => ?_⟩
  · rw [havailable, Option.isSome_eq_false_iff, Option.isNone_iff_eq_none]
  · unfold Support.canInstall
    cases hcase : support.mode with
    | none => simp
    | some mode =>
      cases mode with
      | strict => exact absurd hcase hstrict
      | disabled => simp
      | filter => simp
  · exact (Process.stemsFrom_after (Process.stemsFrom_fresh count) attempts).verdict rfl id hne

/-- A filter that keeps a thread from asking for its mode, and nothing else. -/
def secretive (code : UInt32) : Filter where
  verdict := .allow
  architectures := [.native]
  noNewPrivs := true
  rules := [⟨157, .errno code, [⟨⟨0, by decide⟩, .eq, 21⟩]⟩]

theorem reachable_secretive (code : UInt32) : (secretive code).Reachable :=
  let asks : Condition := ⟨⟨0, by decide⟩, .eq, 21⟩
  Filter.reachable_iff.mpr ⟨.allow, [.addConditionalRule 157 (.errno code) [asks]], rfl⟩

/-- The code decides whether a thread is told that it has no filters or that there are none. -/
theorem detect_under_filters_secretive :
    let attempts (code : UInt32) : List Attempt :=
      [⟨someHost, false, 0, watching, reachable_watching⟩,
        ⟨someHost, false, 0, secretive code, reachable_secretive code⟩]
    let thread (code : UInt32) := ((Process.fresh 1).after (attempts code)).thread 0
    (∃ support, detect someHost (thread 0) = .returned support ∧
      support.mode = some .disabled ∧ support.canInstall = true ∧ (thread 0).layers.length = 3) ∧
    ∃ support, detect someHost (thread 5) = .returned support ∧ support.available = false := by
  intro attempts thread
  constructor
  · have hdetect : detect someHost (thread 0) = .returned ⟨true, some .disabled, []⟩ := by
      decide +kernel
    obtain ⟨-, -, hdisabled, -, -, hinstall, -⟩ := detect_under_filters hdetect
    have hmode := hdisabled.mpr (.inr (by decide +kernel))
    refine ⟨_, hdetect, hmode, ?_, by decide +kernel⟩
    rw [← Bool.not_eq_false, hinstall, hmode]
    exact Option.some_ne_none _
  · have hdetect : detect someHost (thread 5) = .returned ⟨false, none, []⟩ := by
      decide +kernel
    obtain ⟨hnone, -, -, -, havailable, -⟩ := detect_under_filters hdetect
    exact ⟨_, hdetect, havailable.mpr (hnone.mpr (.inr ⟨5, by decide, by decide +kernel⟩))⟩

end SyscallPolicy.Kernel
