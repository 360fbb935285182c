import SyscallPolicy.Proofs.Kernel.Enforcement

/-! Which threads an install reaches: the caller alone, or all of them. In the latter case the kernel
refuses if there is a thread with a program of its own. -/
namespace SyscallPolicy.Kernel
open Bpf (Call Program)

theorem passes_iff {call : Call} {layer : Layer} :
    Passes call layer.program ↔ (layer.verdict call).stops = false := by
  refine ⟨Passes.stops_verdict, fun h => ?_⟩
  rw [Layer.verdict] at h
  cases hrun : layer.program.run call with
  | none =>
    rw [hrun] at h
    cases h
  | some value =>
    rw [hrun] at h
    exact ⟨value, hrun, h⟩

namespace Process
variable {process next : Process} {caller id : Nat} {allThreads : Bool} {program : Program}

/-- Whether a thread has no programs, or one of the caller's as the latest. -/
def Follows (process : Process) (caller id : Nat) : Prop :=
  ∀ layer ∈ (process.thread id).layers.head?, layer ∈ (process.thread caller).layers

/-- What serial numbers are for: a layer stands on the same ones wherever it is. -/
structure Coherent (process : Process) : Prop where
  serial_lt : ∀ {id layer}, layer ∈ (process.thread id).layers → layer.serial < process.nextSerial
  beneath : ∀ {i j layer first second}, layer :: first <:+ (process.thread i).layers →
    layer :: second <:+ (process.thread j).layers → first = second

theorem coherent_of_bare (h : ∀ thread ∈ process.threads, thread.layers = []) :
    process.Coherent := by
  have hnone := layers_of_bare h
  constructor
  · intro id layer hlayer
    rw [hnone] at hlayer
    cases hlayer
  · intro i j layer first second hfirst
    rw [hnone, List.suffix_nil] at hfirst
    cases hfirst

theorem Coherent.setNoNewPrivs (h : process.Coherent) (caller : Nat) :
    (process.setNoNewPrivs caller).Coherent := by
  constructor
  · intro id layer hlayer
    rw [layers_setNoNewPrivs] at hlayer
    exact h.serial_lt hlayer
  · intro i j layer first second hfirst hsecond
    rw [layers_setNoNewPrivs] at hfirst hsecond
    exact h.beneath hfirst hsecond

theorem Coherent.die (h : process.Coherent) (caller : Nat) (death : Death) :
    (process.die caller death).Coherent := by
  obtain ⟨hserial, hbeneath⟩ := h
  cases death <;> exact ⟨hserial, hbeneath⟩

theorem nextSerial_push (process : Process) (caller : Nat) (allThreads : Bool)
    (program : Program) :
    (process.push caller allThreads program).nextSerial = process.nextSerial + 1 := rfl

/-- A thread has the new program on top of the caller's, or what it had before. -/
theorem layers_push_cases (process : Process) (caller : Nat) (allThreads : Bool)
    (program : Program) (id : Nat) :
    ((process.push caller allThreads program).thread id).layers =
        ⟨process.nextSerial, program⟩ :: (process.thread caller).layers ∨
      ((process.push caller allThreads program).thread id).layers =
        (process.thread id).layers := by
  rcases Nat.lt_or_ge id process.threads.length with hid | hid
  · rw [thread_push hid]
    split
    · exact Or.inl rfl
    · exact Or.inr rfl
  · rw [layers_of_le hid, layers_of_le (length_push process _ _ _ ▸ hid)]
    exact Or.inr rfl

/-- A layer that has others beneath it is the new one, on the caller's, or it has had them before. -/
theorem Coherent.suffix_push (h : process.Coherent) {layer : Layer} {rest : List Layer}
    (hrest : layer :: rest <:+ ((process.push caller allThreads program).thread id).layers) :
    layer.serial = process.nextSerial ∧ rest = (process.thread caller).layers ∨
      layer.serial < process.nextSerial ∧ ∃ j, layer :: rest <:+ (process.thread j).layers := by
  have hold : ∀ j, layer :: rest <:+ (process.thread j).layers →
      layer.serial < process.nextSerial ∧ ∃ j, layer :: rest <:+ (process.thread j).layers :=
    fun j hj => ⟨h.serial_lt (hj.subset List.mem_cons_self), j, hj⟩
  rcases layers_push_cases process caller allThreads program id with heq | heq
  · rw [heq, List.suffix_cons_iff] at hrest
    rcases hrest with htop | hbeneath
    · cases htop
      exact Or.inl ⟨rfl, rfl⟩
    · exact Or.inr (hold caller hbeneath)
  · rw [heq] at hrest
    exact Or.inr (hold id hrest)

theorem Coherent.push (h : process.Coherent) (caller : Nat) (allThreads : Bool)
    (program : Program) : (process.push caller allThreads program).Coherent := by
  constructor
  · intro id layer hlayer
    obtain ⟨before, rest, heq⟩ := List.append_of_mem hlayer
    have hcases := h.suffix_push ⟨before, heq.symm⟩
    rw [nextSerial_push]
    omega
  · intro i j layer first second hfirst hsecond
    -- The serial number tells whether the layer is the new one, the same for both threads.
    rcases h.suffix_push hfirst with ⟨hnew, heq⟩ | ⟨hold, k, hk⟩
    · rcases h.suffix_push hsecond with ⟨-, heq'⟩ | ⟨hold, -⟩
      · rw [heq, heq']
      · omega
    · rcases h.suffix_push hsecond with ⟨hnew, -⟩ | ⟨-, l, hl⟩
      · omega
      · exact h.beneath hk hl

/-- A thread that follows the caller has no programs that the caller does not have. -/
theorem Coherent.suffix_iff_follows (h : process.Coherent) :
    (process.thread id).layers <:+ (process.thread caller).layers ↔
      process.Follows caller id := by
  unfold Follows
  constructor
  · exact fun hsuffix layer hlayer => hsuffix.subset (List.mem_of_mem_head? hlayer)
  · intro hfollows
    cases hlayers : (process.thread id).layers with
    | nil => exact List.nil_suffix
    | cons layer rest =>
      rw [hlayers] at hfollows
      obtain ⟨before, beneath, heq⟩ := List.append_of_mem (hfollows layer rfl)
      have hrest : layer :: rest <:+ (process.thread id).layers := ⟨[], hlayers.symm⟩
      have hbeneath : layer :: beneath <:+ (process.thread caller).layers := ⟨before, heq.symm⟩
      rw [h.beneath hrest hbeneath]
      exact hbeneath

theorem Coherent.inStep_iff (h : process.Coherent) :
    process.InStep caller ↔
      ∀ id, process.Lives id → id ≠ caller → process.Follows caller id := by
  constructor
  · exact fun hstep id hid _ => h.suffix_iff_follows.mp (hstep id hid)
  · intro hfollows id hid
    by_cases heq : id = caller
    · exact heq ▸ List.suffix_refl _
    · exact h.suffix_iff_follows.mpr (hfollows id hid heq)

/-- The kernel names a thread that is out of step. -/
theorem attach_of_outOfStep (hprivs : (process.thread caller).noNewPrivs = true)
    (hacceptable : program.isAcceptable = true)
    (hsize : sizeWith (process.thread caller) program ≤ maxKernelSize)
    (hout : process.outOfStep? caller = some id) :
    process.attach caller true program = .error (.notSynchronized id) := by
  unfold attach
  simp only [hprivs, hacceptable, hout, not_true, if_false, if_true, if_neg (Nat.not_lt.mpr hsize)]

theorem outOfStep?_setNoNewPrivs (process : Process) (caller : Nat) :
    (process.setNoNewPrivs caller).outOfStep? caller = process.outOfStep? caller := by
  have hlength : (process.setNoNewPrivs caller).threads.length = process.threads.length :=
    List.length_set
  simp only [outOfStep?, hlength, lives_setNoNewPrivs, layers_setNoNewPrivs]

theorem of_outOfStep?_eq_some (h : process.outOfStep? caller = some id) :
    id ≠ caller ∧ process.Lives id ∧
      ¬(process.thread id).layers <:+ (process.thread caller).layers := by
  have hfound := List.find?_some h
  rwa [decide_eq_true_eq, List.isSuffixOf_iff_suffix] at hfound

end Process

open Process

section Preservation
variable {hosts : Hosts} {allThreads : Bool} {caller : Nat} {process : Process} {P : Process → Prop}

/-- What holds of a process however programs are attached to it and whoever dies, holds after all are
attached. -/
theorem attachAll_preserves (hdie : ∀ process death, P process → P (process.die caller death))
    (hpush : ∀ process program, P process → P (process.push caller allThreads program))
    (programs : List Program) (h : P process) :
    P (attachAll hosts allThreads caller programs process).1 := by
  induction programs generalizing hosts process with
  | nil => exact h
  | cons program programs ih =>
    unfold attachAll
    split
    · exact hdie process .thread h
    · exact hdie process .process h
    · exact ih h
    · exact h
    · split
      · next next hattach =>
        rw [(of_attach_eq_ok hattach).2]
        exact ih (hpush process program h)
      · exact h

/-- What neither a death nor renouncing privileges nor attaching a program changes, an install does
not change, however it ends. -/
theorem install_preserves (hdie : ∀ process death, P process → P (process.die caller death))
    (hrenounce : ∀ process, P process → P (process.setNoNewPrivs caller))
    (hpush : ∀ process program, P process → P (process.push caller allThreads program))
    (filter : Filter) (h : P process) : P (install hosts allThreads caller filter process).1 := by
  have hprograms : ∀ programs,
      P (installPrograms hosts allThreads caller filter.verdict programs process).1 := by
    intro programs
    unfold installPrograms
    split
    · exact hdie process .thread h
    · exact hdie process .process h
    · exact attachAll_preserves hdie hpush programs h
    · exact h
    · exact attachAll_preserves hdie hpush programs (hrenounce process h)
  unfold install
  dsimp only
  split
  · exact h
  · exact h
  · exact hprograms _

theorem coherent_install (filter : Filter) (h : process.Coherent) :
    (install hosts allThreads caller filter process).1.Coherent :=
  install_preserves (fun _ death h => h.die caller death) (fun _ h => h.setNoNewPrivs caller)
    (fun _ program h => h.push _ _ program) filter h

theorem coherent_installIfLiving (filter : Filter) (h : process.Coherent) :
    (installIfLiving hosts allThreads caller filter process).Coherent := by
  unfold installIfLiving
  split
  · exact coherent_install filter h
  · exact h

/-- Without a request for all threads, no thread but the caller is touched. -/
theorem thread_install_of_ne {id : Nat} (hne : id ≠ caller) (filter : Filter) :
    (install hosts false caller filter process).1.thread id = process.thread id := by
  refine install_preserves (P := fun next => next.thread id = process.thread id)
    (fun next death h => ?_) (fun next h => ?_) (fun next program h => ?_) filter rfl
  · rwa [thread_die]
  · exact (thread_setThread_of_ne hne _).trans h
  · rw [thread_push_of_not (by simp [hne]), h]

theorem Process.Coherent.after (h : process.Coherent) (attempts : List Attempt) :
    (process.after attempts).Coherent := by
  induction attempts generalizing process with
  | nil => exact h
  | cons attempt attempts ih =>
    exact ih (coherent_installIfLiving attempt.filter h)

end Preservation

section AllThreads
variable {hosts : Hosts} {caller : Nat} {process : Process} {filter : Filter}
  {programs : List Program}

/-- Nothing that the caller is under keeps it from installing a filter on all threads: it lets each
of the calls that it takes through. -/
structure Unhindered (hosts : Hosts) (process : Process) (caller : Nat) (programs : List Program) :
    Prop where
  lives : process.Lives caller
  renounces : ∀ layer ∈ (process.thread caller).layers,
    (layer.verdict (hosts 0).noNewPrivsCall).stops = false
  attaches : ∀ n < programs.length, ∀ layer ∈ (process.thread caller).layers,
    (layer.verdict ((hosts (n + 1)).attachCall true)).stops = false
  size_le : stackSize programs + stackSize ((process.thread caller).layers.map (·.program)) ≤
    maxKernelSize + layerPenalty

/-- Threads that are in step end up with the same layers. -/
theorem install_of_inStep (hs : filter.Sound) (hlower : filter.lower.result = .ok programs)
    (hne : programs ≠ []) (h : Unhindered hosts process caller programs)
    (hstep : process.InStep caller) :
    let installed := (install hosts true caller filter process).1
    (install hosts true caller filter process).2.result = .returned (.ok ()) ∧
    (∀ id, installed.Lives id ↔ process.Lives id) ∧
    ∃ added : List Layer, added.map (·.program) = programs.reverse ∧
      ∀ id, process.Lives id →
        (installed.thread id).layers = added ++ (process.thread caller).layers := by
  have haccepts := accepts_setNoNewPrivs h.lives.1 fun _ : true = true => hstep
  have hgrown : process.GrownBy ((process.setNoNewPrivs caller).pushAll caller true programs) caller
      true programs :=
    (grownBy_pushAll (fun _ => haccepts) rfl).of_alike (alike_setNoNewPrivs process caller)
  rw [install_eq hs hlower hne h.lives.1 (fun _ => hstep)
    (fun layer hlayer => passes_iff.mpr (h.renounces layer hlayer))
    (fun n hn layer hlayer => passes_iff.mpr (h.attaches n hn layer hlayer)) h.size_le]
  refine ⟨rfl, fun id => lives_pushAll.trans lives_setNoNewPrivs, ?_⟩
  obtain ⟨added, hadded⟩ := hgrown.suffix caller
  have hprograms := hgrown.programs
  rw [← hadded, List.map_append] at hprograms
  refine ⟨added, List.append_cancel_right hprograms, fun id hid => ?_⟩
  rw [hgrown.layers hne, if_pos (Or.inr ⟨rfl, hid⟩), hadded]

/-- A thread that is out of step keeps the first program, and so all of them, from being
attached. -/
theorem install_of_outOfStep {id : Nat} (hs : filter.Sound)
    (hlower : filter.lower.result = .ok programs) (hne : programs ≠ [])
    (h : Unhindered hosts process caller programs) (hout : process.outOfStep? caller = some id) :
    (install hosts true caller filter process).2.result =
        .returned (.error (.install (.notSynchronized id))) ∧
      (install hosts true caller filter process).1 = process.setNoNewPrivs caller := by
  obtain ⟨program, rest, rfl⟩ := List.exists_cons_of_ne_nil hne
  have hlayers := layers_setNoNewPrivs process caller caller
  have hrenounce : (process.thread caller).fate (hosts 0).noNewPrivsCall = .runs :=
    Thread.fate_eq_runs_iff.mpr h.renounces
  have hattach : ((process.setNoNewPrivs caller).thread caller).fate
      ((hosts 1).attachCall true) = .runs := by
    rw [Thread.fate_eq_runs_iff, hlayers]
    exact h.attaches 0 (Nat.zero_lt_succ _)
  have hacceptable := hs.isAcceptable_of_mem (Filter.lower_eq_ok hlower) program
    List.mem_cons_self
  have hprivs : ((process.setNoNewPrivs caller).thread caller).noNewPrivs = true := by
    rw [Process.setNoNewPrivs, thread_setThread_self h.lives.1]
  have hsize : sizeWith ((process.setNoNewPrivs caller).thread caller) program ≤
      maxKernelSize := by
    have hle := h.size_le
    rw [stackSize] at hle
    rw [sizeWith_eq, hlayers]
    omega
  have hrefused := attach_of_outOfStep hprivs hacceptable hsize
    ((outOfStep?_setNoNewPrivs process caller).trans hout)
  simp only [install, hlower, installPrograms, hrenounce, attachAll, Hosts.rest_apply, Nat.zero_add,
    hattach, hrefused, and_self]

end AllThreads

/-- Which threads an install reaches, after whatever installs before it. Without a request for all
threads it is the caller alone. With one, a caller that is not hindered brings all living threads
under its own programs and those of the filter if they follow it, and changes nothing if one does
not. -/
theorem install_reaches {start : Process} {earlier : List Attempt} {hosts : Hosts} {caller : Nat}
    {filter : Filter} {programs : List Program}
    (hbare : ∀ thread ∈ start.threads, thread.layers = []) (hreachable : filter.Reachable)
    (hlower : filter.lower.result = .ok programs) (hne : programs ≠ []) :
    let process := start.after earlier
    (∀ id, id ≠ caller →
      (install hosts false caller filter process).1.thread id = process.thread id) ∧
    (Unhindered hosts process caller programs →
      let installed := (install hosts true caller filter process).1
      let result := (install hosts true caller filter process).2.result
      ((∀ id, process.Lives id → id ≠ caller → process.Follows caller id) →
        result = .returned (.ok ()) ∧
        (∀ id, installed.Lives id ↔ process.Lives id) ∧
        ∃ added : List Layer, added.map (·.program) = programs.reverse ∧
          ∀ id, process.Lives id →
            (installed.thread id).layers = added ++ (process.thread caller).layers) ∧
      ((∃ id, process.Lives id ∧ id ≠ caller ∧ ¬process.Follows caller id) →
        (∃ id, process.Lives id ∧ id ≠ caller ∧ ¬process.Follows caller id ∧
          result = .returned (.error (.install (.notSynchronized id)))) ∧
        ∀ id, (installed.thread id).layers = (process.thread id).layers)) := by
  intro process
  have hs := hreachable.sound
  have hcoherent : process.Coherent := (coherent_of_bare hbare).after earlier
  refine ⟨fun id hid => thread_install_of_ne hid filter, fun hfree => ⟨fun hfollows => ?_, ?_⟩⟩
  · exact install_of_inStep hs hlower hne hfree (hcoherent.inStep_iff.mpr hfollows)
  · rintro ⟨rival, hrival, hother, hunrelated⟩
    cases hout : process.outOfStep? caller with
    | none =>
      have hfollows := hcoherent.inStep_iff.mp (outOfStep?_eq_none_iff.mp hout)
      exact absurd (hfollows rival hrival hother) hunrelated
    | some id =>
      obtain ⟨hresult, hinstalled⟩ := install_of_outOfStep hs hlower hne hfree hout
      obtain ⟨hid, hlives, hsuffix⟩ := of_outOfStep?_eq_some hout
      refine ⟨⟨id, hlives, hid, mt hcoherent.suffix_iff_follows.mpr hsuffix, hresult⟩,
        fun id => ?_⟩
      exact (congrArg (fun process => (process.thread id).layers) hinstalled).trans
        (layers_setNoNewPrivs process caller id)

/-- A filter that kills a thread that renounces new privileges. -/
def deadly : Filter where
  verdict := .allow
  architectures := [.native]
  noNewPrivs := true
  rules := [⟨157, .killThread, []⟩]

theorem reachable_deadly : deadly.Reachable :=
  Filter.reachable_iff.mpr ⟨.allow, [.addRule 157 .killThread], by decide +kernel⟩

/-- The main thread cannot bring others under its programs while one of them has programs of its
own, but that one can. It still can once a third thread has died of an install. -/
theorem install_reaches_rival :
    let rivalry : List Attempt := [⟨someHost, false, 1, watching, reachable_watching⟩]
    let suicide : List Attempt := [⟨someHost, false, 2, deadly, reachable_deadly⟩,
      ⟨someHost, false, 2, watching, reachable_watching⟩]
    let process := (Process.fresh 3).after rivalry
    let bereft := (Process.fresh 3).after (rivalry ++ suicide)
    ((install someHost false 2 watching process).1.thread 0 = process.thread 0) ∧
    ((install countingHosts true 1 watching process).2.result = .returned (.ok ()) ∧
      ((install countingHosts true 1 watching process).1.thread 0).layers.length = 4) ∧
    ((∃ id, (install someHost true 0 watching process).2.result =
        .returned (.error (.install (.notSynchronized id)))) ∧
      ∀ id, ((install someHost true 0 watching process).1.thread id).layers =
        (process.thread id).layers) ∧
    ¬bereft.Lives 2 ∧ ¬bereft.Follows 1 2 ∧
      (install countingHosts true 1 watching bereft).2.result = .returned (.ok ()) := by
  intro rivalry suicide process bereft
  obtain ⟨programs, hlower, hne, hlength⟩ : ∃ programs,
      watching.lower.result = .ok programs ∧ programs ≠ [] ∧ programs.length = 2 :=
    ⟨watching.programs.toOption.getD [], by decide +kernel⟩
  have hprograms : programs = watching.programs.toOption.getD [] := by
    rw [Filter.lower_eq_ok hlower]
    rfl
  have hbare : ∀ thread ∈ (Process.fresh 3).threads, thread.layers = [] := by decide
  have hreach (earlier : List Attempt) {hosts : Hosts} {caller : Nat} :=
    @install_reaches (.fresh 3) earlier hosts caller _ _ hbare reachable_watching hlower hne
  refine ⟨(@hreach rivalry someHost _).1 0 (by decide), ?_, ?_, ?_⟩
  · have hfree : Unhindered countingHosts process 1 programs := by
      rw [hprograms]
      constructor <;> decide +kernel
    have hfollows : ∀ id < 3, id ≠ 1 → process.Follows 1 id := by
      unfold Follows
      decide +kernel
    obtain ⟨hok, -, added, hadded, hlayers⟩ :=
      ((hreach rivalry).2 hfree).1 fun id hid => hfollows id hid.1
    refine ⟨hok, ?_⟩
    rw [hlayers 0 (by decide +kernel), List.length_append, ← List.length_map (·.program), hadded,
      List.length_reverse, hlength]
    decide +kernel
  · have hfree : Unhindered someHost process 0 programs := by
      rw [hprograms]
      constructor <;> decide +kernel
    obtain ⟨⟨id, -, -, -, hresult⟩, hlayers⟩ :=
      ((hreach rivalry).2 hfree).2 ⟨1, by unfold Follows; decide +kernel⟩
    exact ⟨⟨id, hresult⟩, hlayers⟩
  · have hfree : Unhindered countingHosts bereft 1 programs := by
      rw [hprograms]
      constructor <;> decide +kernel
    have hfollows : ∀ id < 2, id ≠ 1 → bereft.Follows 1 id := by
      unfold Follows
      decide +kernel
    have hdead : ¬bereft.Lives 2 ∧ bereft.threads.length = 3 := by decide +kernel
    refine ⟨hdead.1, by unfold Follows; decide +kernel, ?_⟩
    refine (((hreach (rivalry ++ suicide)).2 hfree).1 fun id hid => hfollows id ?_).1
    have hne : id ≠ 2 := fun heq => hdead.1 (heq ▸ hid)
    have hlt : id < 3 := hdead.2 ▸ hid.1
    omega

end SyscallPolicy.Kernel
