import SyscallPolicy.Kernel.Install
import SyscallPolicy.Proofs.Lists
import SyscallPolicy.Proofs.Verdict

/-! Programs attached one after the other by a thread that is under those attached before. -/
namespace SyscallPolicy.Kernel
open Bpf (Call Program)

theorem Fate.ofVerdict_eq_runs_iff {v : Verdict} : Fate.ofVerdict v = .runs ↔ v.stops = false := by
  cases v <;> simp [Fate.ofVerdict, Verdict.stops]

/-- Whether a program lets a call through: it has an answer for it that does not stop the call. -/
def Passes (call : Call) (program : Program) : Prop :=
  ∃ value, program.run call = some value ∧ (Verdict.ofWord value).stops = false

theorem Passes.stops_verdict {call : Call} {layer : Layer} (h : Passes call layer.program) :
    (layer.verdict call).stops = false := by
  obtain ⟨value, hrun, hstops⟩ := h
  rw [Layer.verdict, hrun]
  exact hstops

namespace Thread
variable {thread : Thread} {call : Call}

/-- A call is made exactly if none of the attached programs stops it. -/
theorem fate_eq_runs_iff :
    thread.fate call = .runs ↔ ∀ layer ∈ thread.layers, (layer.verdict call).stops = false := by
  rw [fate, Fate.ofVerdict_eq_runs_iff, verdict]
  constructor
  · intro hstops layer hlayer
    have hmem : layer.verdict call ∈ thread.layers.map (·.verdict call) :=
      List.mem_map.mpr ⟨layer, hlayer, rfl⟩
    have hle := Verdict.rank_le_strictest hmem
    rw [Verdict.stops_eq_false_iff] at hstops ⊢
    exact Nat.le_trans hle hstops
  · intro hlayers
    apply Verdict.stops_strictest
    intro v hv
    obtain ⟨layer, hlayer, rfl⟩ := List.mem_map.mp hv
    exact hlayers layer hlayer

/-- A call that all attached programs let through is made. -/
theorem fate_eq_runs (h : ∀ layer ∈ thread.layers, Passes call layer.program) :
    thread.fate call = .runs :=
  fate_eq_runs_iff.mpr fun layer hlayer => (h layer hlayer).stops_verdict

end Thread

namespace Process
variable {process next : Process} {caller : Nat} {allThreads : Bool} {program : Program}

/-- What programs that are attached take of the kernel's limit. -/
def stackSize : List Program → Nat
  | [] => 0
  | program :: programs => program.kernelSize + layerPenalty + stackSize programs

@[simp] theorem stackSize_append (first second : List Program) :
    stackSize (first ++ second) = stackSize first + stackSize second := by
  induction first with
  | nil => exact (Nat.zero_add _).symm
  | cons program first ih =>
    rw [List.cons_append, stackSize, stackSize, ih]
    omega

@[simp] theorem stackSize_reverse (programs : List Program) :
    stackSize programs.reverse = stackSize programs := by
  induction programs with
  | nil => rfl
  | cons program programs ih =>
    rw [List.reverse_cons, stackSize_append, ih, stackSize, stackSize, stackSize]
    omega

theorem sizeWith_eq (thread : Thread) (program : Program) :
    sizeWith thread program = program.kernelSize + stackSize (thread.layers.map (·.program)) := by
  have hfold : ∀ (layers : List Layer) (size : Nat),
      layers.foldl (fun size layer => size + layer.program.kernelSize + layerPenalty) size =
        size + stackSize (layers.map (·.program)) := by
    intro layers
    induction layers with
    | nil => exact fun _ => rfl
    | cons layer layers ih =>
      intro size
      rw [List.foldl_cons, ih, List.map_cons, stackSize]
      omega
  exact hfold thread.layers program.kernelSize

/-- Every living thread is under some of the caller's programs, the first ones, and no others. -/
def InStep (process : Process) (caller : Nat) : Prop :=
  ∀ id, process.Lives id → (process.thread id).layers <:+ (process.thread caller).layers

theorem layers_of_le {id : Nat} (h : process.threads.length ≤ id) :
    (process.thread id).layers = [] := by
  simp [Process.thread, List.getD, List.getElem?_eq_none h]

theorem layers_of_bare (h : ∀ thread ∈ process.threads, thread.layers = []) (id : Nat) :
    (process.thread id).layers = [] := by
  rcases Nat.lt_or_ge id process.threads.length with hid | hid
  · refine h _ ?_
    simp [Process.thread, hid]
  · exact layers_of_le hid

theorem thread_setThread_self (h : caller < process.threads.length) (thread : Thread) :
    (process.setThread caller thread).thread caller = thread := by
  simp [Process.thread, setThread, h]

theorem thread_setThread_of_ne {id : Nat} (hne : id ≠ caller) (thread : Thread) :
    (process.setThread caller thread).thread id = process.thread id := by
  simp [Process.thread, setThread, List.getD, Ne.symm hne]

theorem layers_setNoNewPrivs (process : Process) (caller id : Nat) :
    ((process.setNoNewPrivs caller).thread id).layers = (process.thread id).layers := by
  unfold setNoNewPrivs
  by_cases heq : id = caller
  · rcases Nat.lt_or_ge caller process.threads.length with h | h
    · rw [heq, thread_setThread_self h]
    · rw [setThread, List.set_eq_of_length_le h]
  · rw [thread_setThread_of_ne heq]

@[simp] theorem lives_setNoNewPrivs {id : Nat} :
    (process.setNoNewPrivs caller).Lives id ↔ process.Lives id := by
  simp [Lives, setNoNewPrivs, setThread]

/-- Nothing but its size can keep an acceptable program from being attached by the caller. -/
structure Accepts (process : Process) (caller : Nat) (allThreads : Bool) : Prop where
  noNewPrivs : (process.thread caller).noNewPrivs = true
  inStep : allThreads = true → process.InStep caller

theorem Accepts.caller_lt (h : process.Accepts caller allThreads) :
    caller < process.threads.length := by
  by_contra hge
  have hdefault : process.thread caller = {} := by
    simp [Process.thread, List.getD, List.getElem?_eq_none (Nat.le_of_not_lt hge)]
  have hprivs := h.noNewPrivs
  rw [hdefault] at hprivs
  cases hprivs

theorem accepts_setNoNewPrivs (h : caller < process.threads.length)
    (hstep : allThreads = true → process.InStep caller) :
    (process.setNoNewPrivs caller).Accepts caller allThreads where
  noNewPrivs := by rw [setNoNewPrivs, thread_setThread_self h]
  inStep hall id hid := by
    rw [layers_setNoNewPrivs, layers_setNoNewPrivs]
    exact hstep hall id (lives_setNoNewPrivs.mp hid)

theorem outOfStep?_eq_none_iff : process.outOfStep? caller = none ↔ process.InStep caller := by
  simp only [outOfStep?, InStep, List.find?_eq_none, List.mem_range, decide_eq_true_eq, not_and,
    not_not, List.isSuffixOf_iff_suffix]
  constructor
  · intro h id hid
    by_cases heq : id = caller
    · exact heq ▸ List.suffix_refl _
    · exact h id hid.1 heq hid
  · exact fun h id _ _ hid => h id hid

/-- What the kernel answers to a caller that it accepts programs from. -/
theorem Accepts.attach_eq (h : process.Accepts caller allThreads)
    (hacceptable : program.isAcceptable = true) :
    process.attach caller allThreads program =
      if maxKernelSize < sizeWith (process.thread caller) program then
        .error (.system .outOfMemory)
      else .ok (process.push caller allThreads program) := by
  unfold attach
  simp only [h.noNewPrivs, hacceptable, not_true, if_false]
  cases allThreads with
  | false => rfl
  | true =>
    rw [outOfStep?_eq_none_iff.mpr (h.inStep rfl)]
    rfl

/-- An answer without an error means that the program is attached, and that the caller is one that
the kernel accepts programs from. -/
theorem of_attach_eq_ok (h : process.attach caller allThreads program = .ok next) :
    process.Accepts caller allThreads ∧ next = process.push caller allThreads program := by
  unfold attach at h
  dsimp only at h
  split_ifs at h with hprivs hacceptable hsize hall
  · split at h
    · cases h
    · next hnone =>
      cases h
      exact ⟨⟨hprivs, fun _ => outOfStep?_eq_none_iff.mp hnone⟩, rfl⟩
  · cases h
    exact ⟨⟨hprivs, fun htrue => absurd htrue hall⟩, rfl⟩

section Push
variable {id : Nat} {programs : List Program}

theorem length_push (process : Process) (caller : Nat) (allThreads : Bool) (program : Program) :
    (process.push caller allThreads program).threads.length = process.threads.length :=
  List.length_mapIdx

@[simp] theorem lives_push : (process.push caller allThreads program).Lives id ↔
    process.Lives id := by
  rw [Lives, length_push]
  rfl

theorem thread_push (h : id < process.threads.length) :
    (process.push caller allThreads program).thread id =
      if id = caller ∨ allThreads = true ∧ process.Lives id then
        { process.thread caller with
          layers := ⟨process.nextSerial, program⟩ :: (process.thread caller).layers }
      else process.thread id := by
  simp [Process.thread, push, List.getD, h]

theorem thread_push_self (h : caller < process.threads.length) (allThreads : Bool)
    (program : Program) :
    (process.push caller allThreads program).thread caller = { process.thread caller with
      layers := ⟨process.nextSerial, program⟩ :: (process.thread caller).layers } := by
  rw [thread_push h, if_pos (Or.inl rfl)]

theorem thread_push_of_not (h : ¬(id = caller ∨ allThreads = true ∧ process.Lives id))
    (program : Program) :
    (process.push caller allThreads program).thread id = process.thread id := by
  rcases Nat.lt_or_ge id process.threads.length with hid | hid
  · rw [thread_push hid, if_neg h]
  · simp [Process.thread, Process.push, List.getD, List.getElem?_eq_none hid]

theorem layers_push (h : caller < process.threads.length) (allThreads : Bool) (program : Program)
    (id : Nat) :
    ((process.push caller allThreads program).thread id).layers =
      if id = caller ∨ allThreads = true ∧ process.Lives id then
        ⟨process.nextSerial, program⟩ :: (process.thread caller).layers
      else (process.thread id).layers := by
  split
  · next hgrown =>
    have hid : id < process.threads.length := by
      rcases hgrown with rfl | ⟨-, hlives⟩
      · exact h
      · exact hlives.1
    rw [thread_push hid, if_pos hgrown]
  · next hother => rw [thread_push_of_not hother]

theorem Accepts.push (h : process.Accepts caller allThreads) (program : Program) :
    (process.push caller allThreads program).Accepts caller allThreads where
  noNewPrivs := by
    rw [thread_push_self h.caller_lt]
    exact h.noNewPrivs
  inStep hall id hid := by
    rw [lives_push] at hid
    have hsame : ((process.push caller allThreads program).thread id).layers =
        ((process.push caller allThreads program).thread caller).layers := by
      rw [layers_push h.caller_lt, layers_push h.caller_lt, if_pos (Or.inl rfl),
        if_pos (Or.inr ⟨hall, hid⟩)]
    exact hsame ▸ List.suffix_refl _

theorem Accepts.suffix_push (h : process.Accepts caller allThreads) (program : Program)
    (id : Nat) :
    (process.thread id).layers <:+ ((process.push caller allThreads program).thread id).layers := by
  rw [layers_push h.caller_lt]
  split
  · next hgrown =>
    refine List.IsSuffix.trans ?_ (List.suffix_cons _ _)
    rcases hgrown with rfl | ⟨hall, hid⟩
    · exact List.suffix_refl _
    · exact h.inStep hall id hid
  · exact List.suffix_refl _

/-- A process in which programs are attached one after the other. -/
def pushAll (caller : Nat) (allThreads : Bool) (process : Process) (programs : List Program) :
    Process :=
  programs.foldl (push caller allThreads) process

theorem pushAll_cons (process : Process) (program : Program) (programs : List Program) :
    process.pushAll caller allThreads (program :: programs) =
      (process.push caller allThreads program).pushAll caller allThreads programs := rfl

theorem pushAll_concat (process : Process) (programs : List Program) (program : Program) :
    process.pushAll caller allThreads (programs ++ [program]) =
      (process.pushAll caller allThreads programs).push caller allThreads program :=
  List.foldl_append

@[simp] theorem lives_pushAll :
    (process.pushAll caller allThreads programs).Lives id ↔ process.Lives id := by
  induction programs generalizing process with
  | nil => rfl
  | cons program programs ih => exact ih.trans lives_push

theorem Accepts.pushAll (h : process.Accepts caller allThreads) (programs : List Program) :
    (process.pushAll caller allThreads programs).Accepts caller allThreads := by
  induction programs generalizing process with
  | nil => exact h
  | cons program programs ih => exact ih (h.push program)

theorem Accepts.suffix_pushAll (h : process.Accepts caller allThreads) (programs : List Program)
    (id : Nat) :
    (process.thread id).layers <:+
      ((process.pushAll caller allThreads programs).thread id).layers := by
  induction programs generalizing process with
  | nil => exact List.suffix_refl _
  | cons program programs ih => exact (h.suffix_push program id).trans (ih (h.push program))

theorem Accepts.programs_pushAll (h : process.Accepts caller allThreads)
    (programs : List Program) :
    ((process.pushAll caller allThreads programs).thread caller).layers.map (·.program) =
      programs.reverse ++ (process.thread caller).layers.map (·.program) := by
  induction programs generalizing process with
  | nil => rfl
  | cons program programs ih =>
    rw [pushAll_cons, ih (h.push program), thread_push_self h.caller_lt, List.map_cons,
      List.reverse_cons, List.append_assoc, List.singleton_append]

theorem Accepts.layers_pushAll_of_not (h : process.Accepts caller allThreads)
    (hother : ¬(id = caller ∨ allThreads = true ∧ process.Lives id)) :
    ((process.pushAll caller allThreads programs).thread id).layers =
      (process.thread id).layers := by
  induction programs generalizing process with
  | nil => rfl
  | cons program programs ih =>
    rw [pushAll_cons, ih (h.push program) (by rwa [lives_push]), layers_push h.caller_lt,
      if_neg hother]

/-- The threads that programs are attached to end up with the caller's programs, the others stay as
they are. -/
theorem Accepts.layers_pushAll (h : process.Accepts caller allThreads) (hne : programs ≠ [])
    (id : Nat) :
    ((process.pushAll caller allThreads programs).thread id).layers =
      if id = caller ∨ allThreads = true ∧ process.Lives id then
        ((process.pushAll caller allThreads programs).thread caller).layers
      else (process.thread id).layers := by
  split
  · next hgrown =>
    obtain ⟨programs, program, rfl⟩ := (List.eq_nil_or_concat' programs).resolve_left hne
    have hcaller := (h.pushAll programs).caller_lt
    have hpushed : id = caller ∨
        allThreads = true ∧ (process.pushAll caller allThreads programs).Lives id := by
      rwa [lives_pushAll]
    rw [pushAll_concat, layers_push hcaller, layers_push hcaller, if_pos hpushed,
      if_pos (Or.inl rfl)]
  · next hother => exact h.layers_pushAll_of_not hother

end Push

end Process

open Process

@[simp] theorem Hosts.rest_apply (hosts : Hosts) (n : Nat) : hosts.rest n = hosts (n + 1) := rfl

/-- Programs are attached one after the other as long as none of them but the last stops the calls
that attach programs. -/
theorem attachAll_eq (hosts : Hosts) {allThreads : Bool} {caller : Nat} {programs : List Program}
    {process : Process} (h : process.Accepts caller allThreads)
    (hacceptable : ∀ program ∈ programs, program.isAcceptable = true)
    (hattached : ∀ n < programs.length, ∀ layer ∈ (process.thread caller).layers,
      Passes ((hosts n).attachCall allThreads) layer.program)
    (hpasses : ∀ n, ∀ program ∈ programs.dropLast,
      Passes ((hosts n).attachCall allThreads) program)
    (hsize : stackSize programs + stackSize ((process.thread caller).layers.map (·.program)) ≤
      maxKernelSize + layerPenalty) :
    attachAll hosts allThreads caller programs process =
      (process.pushAll caller allThreads programs, .returned (.ok ())) := by
  induction programs generalizing hosts process with
  | nil => rfl
  | cons program programs ih =>
    have hlayers := thread_push_self h.caller_lt allThreads program
    have hfate : (process.thread caller).fate ((hosts 0).attachCall allThreads) = .runs :=
      Thread.fate_eq_runs (hattached 0 (Nat.zero_lt_succ _))
    rw [stackSize] at hsize
    have hattach : process.attach caller allThreads program =
        .ok (process.push caller allThreads program) := by
      rw [h.attach_eq (hacceptable program List.mem_cons_self), if_neg]
      rw [sizeWith_eq]
      omega
    have hpush : ∀ n < programs.length,
        ∀ layer ∈ ((process.push caller allThreads program).thread caller).layers,
        Passes ((hosts.rest n).attachCall allThreads) layer.program := by
      intro n hn layer hlayer
      rw [hlayers] at hlayer
      rcases List.mem_cons.mp hlayer with rfl | hlayer
      · refine hpasses (n + 1) program ?_
        rw [List.dropLast_cons_of_ne_nil (List.ne_nil_of_length_pos (by omega))]
        exact List.mem_cons_self
      · exact hattached (n + 1) (Nat.succ_lt_succ hn) layer hlayer
    simp only [attachAll, hfate, hattach]
    refine ih hosts.rest (h.push program)
      (fun p hp => hacceptable p (List.mem_cons_of_mem program hp)) hpush
      (fun n p hp => hpasses (n + 1) p (mem_dropLast_cons hp)) ?_
    simp only [hlayers, List.map_cons, stackSize]
    omega

/-- A thread whose programs let it renounce new privileges and attach programs installs more of
them on top, unless one that stops the attaching comes before others. -/
theorem installPrograms_eq {hosts : Hosts} {allThreads : Bool} {caller : Nat} (verdict : Verdict)
    {programs : List Program} {process : Process} (h : caller < process.threads.length)
    (hstep : allThreads = true → process.InStep caller)
    (hacceptable : ∀ program ∈ programs, program.isAcceptable = true)
    (hrenounce : ∀ layer ∈ (process.thread caller).layers,
      Passes (hosts 0).noNewPrivsCall layer.program)
    (hattached : ∀ n < programs.length, ∀ layer ∈ (process.thread caller).layers,
      Passes ((hosts (n + 1)).attachCall allThreads) layer.program)
    (hpasses : ∀ n, ∀ program ∈ programs.dropLast,
      Passes ((hosts n).attachCall allThreads) program)
    (hsize : stackSize programs + stackSize ((process.thread caller).layers.map (·.program)) ≤
      maxKernelSize + layerPenalty) :
    installPrograms hosts allThreads caller verdict programs process =
      ((process.setNoNewPrivs caller).pushAll caller allThreads programs,
        ⟨[.installing programs.length verdict], .returned (.ok ())⟩) := by
  rw [← layers_setNoNewPrivs process caller caller] at hattached hsize
  have hattach := attachAll_eq hosts.rest (accepts_setNoNewPrivs h hstep) hacceptable
    hattached (fun n => hpasses (n + 1)) hsize
  simp only [installPrograms, Thread.fate_eq_runs hrenounce, hattach]

end SyscallPolicy.Kernel
