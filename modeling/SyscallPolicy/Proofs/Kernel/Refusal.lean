import SyscallPolicy.Proofs.Kernel.Enforcement

/-! Installs that fail: what they leave attached. -/
namespace SyscallPolicy.Kernel
open Bpf (Call Program)
open Process

section Limit
variable {hosts : Hosts} {allThreads : Bool} {caller : Nat} {process : Process} {filter : Filter}
  {attached rest : List Program} {refused : Program}

theorem attachAll_append {next : Process} {first second : List Program}
    (h : attachAll hosts allThreads caller first process = (next, .returned (.ok ()))) :
    attachAll hosts allThreads caller (first ++ second) process =
      attachAll (fun n => hosts (n + first.length)) allThreads caller second next := by
  induction first generalizing hosts process with
  | nil =>
    cases h
    rfl
  | cons program first ih =>
    simp only [List.cons_append, attachAll] at h ⊢
    split at h
    · cases h
    · cases h
    · exact ih h
    · cases h
    · split at h
      · exact ih h
      · cases h

/-- An install on top of programs that let it renounce new privileges and attach programs fails
halfway once one of its programs is too much. -/
theorem install_cut_short (hosts : Hosts) (allThreads : Bool) (hs : filter.Sound)
    (hlower : filter.lower.result = .ok (attached ++ refused :: rest))
    (hcaller : caller < process.threads.length)
    (hstep : allThreads = true → process.InStep caller)
    (hrenounce : ∀ layer ∈ (process.thread caller).layers,
      Passes (hosts 0).noNewPrivsCall layer.program)
    (hattached : ∀ n, ∀ layer ∈ (process.thread caller).layers,
      Passes ((hosts n).attachCall allThreads) layer.program)
    (hfits : stackSize attached + stackSize ((process.thread caller).layers.map (·.program)) ≤
      maxKernelSize + layerPenalty)
    (hlimit : maxKernelSize < refused.kernelSize + stackSize attached +
      stackSize ((process.thread caller).layers.map (·.program))) :
    (install hosts allThreads caller filter process).2.result =
        .returned (.error (.install (.system .outOfMemory))) ∧
      ((install hosts allThreads caller filter process).1.thread caller).layers.map (·.program) =
        attached.reverse ++ (process.thread caller).layers.map (·.program) := by
  have hprograms := Filter.lower_eq_ok hlower
  have hacceptable := hs.isAcceptable_of_mem hprograms
  have hpasses : ∀ n, ∀ program ∈ attached, Passes ((hosts n).attachCall allThreads) program := by
    intro n program hprogram
    refine hs.passes_attachCall hprograms (hosts n) allThreads program ?_
    rw [List.dropLast_append_cons]
    exact List.mem_append_left _ hprogram
  have hfree := accepts_setNoNewPrivs hcaller hstep
  have hlayers := layers_setNoNewPrivs process caller caller
  obtain ⟨next, hnext⟩ :
      ∃ next, next = (process.setNoNewPrivs caller).pushAll caller allThreads attached := ⟨_, rfl⟩
  have hfirst : attachAll hosts.rest allThreads caller attached (process.setNoNewPrivs caller) =
      (next, .returned (.ok ())) := by
    rw [hnext]
    exact attachAll_eq hosts.rest hfree
      (fun program hprogram => hacceptable program (List.mem_append_left _ hprogram))
      (fun n _ => hlayers ▸ hattached (n + 1))
      (fun n program hprogram => hpasses (n + 1) program (List.dropLast_subset _ hprogram))
      (hlayers ▸ hfits)
  have haccepts : next.Accepts caller allThreads := hnext.symm ▸ hfree.pushAll attached
  have hstack : (next.thread caller).layers.map (·.program) =
      attached.reverse ++ (process.thread caller).layers.map (·.program) := by
    rw [hnext, hfree.programs_pushAll, hlayers]
  have hruns : (next.thread caller).fate ((hosts (attached.length + 1)).attachCall allThreads) =
      .runs := by
    apply Thread.fate_eq_runs
    intro layer hlayer
    have hmem := List.mem_map_of_mem (f := (·.program)) hlayer
    rw [hstack, List.mem_append, List.mem_reverse] at hmem
    rcases hmem with hmem | hmem
    · exact hpasses _ _ hmem
    · obtain ⟨old, hold, heq⟩ := List.mem_map.mp hmem
      exact heq ▸ hattached _ old hold
  have hrefused := haccepts.attach_eq (hacceptable refused (by simp))
  rw [sizeWith_eq, hstack, stackSize_append, stackSize_reverse, if_pos (by omega)] at hrefused
  have hrest : attachAll hosts.rest allThreads caller (attached ++ refused :: rest)
      (process.setNoNewPrivs caller) =
        (next, .returned (.error (.install (.system .outOfMemory)))) := by
    rw [attachAll_append hfirst]
    simp only [attachAll, Hosts.rest_apply, Nat.zero_add, hruns, hrefused]
  obtain ⟨first, others, hcons⟩ := List.exists_cons_of_ne_nil (l := attached ++ refused :: rest)
    (by simp)
  rw [hcons] at hlower hrest
  simp only [install, hlower, installPrograms, Thread.fate_eq_runs hrenounce, hrest]
  exact ⟨trivial, hstack⟩

end Limit

section Repetition
variable {attempt : Attempt} {programs : List Program}

theorem stackSize_flatten_replicate (n : Nat) :
    stackSize (List.replicate n programs).flatten = n * stackSize programs := by
  induction n with
  | zero => simp [stackSize]
  | succ n ih =>
    rw [List.replicate_succ, List.flatten_cons, stackSize_append, ih, Nat.succ_mul, Nat.add_comm]

/-- A pile of copies of some programs has no others in it. -/
theorem mem_of_pile {thread : Thread} {n : Nat} {layer : Layer}
    (hpile : thread.layers.map (·.program) = (List.replicate n programs.reverse).flatten)
    (hlayer : layer ∈ thread.layers) : layer.program ∈ programs := by
  have hmem : layer.program ∈ thread.layers.map (·.program) :=
    List.mem_map.mpr ⟨layer, hlayer, rfl⟩
  rw [hpile] at hmem
  obtain ⟨copy, hcopy, hmem⟩ := List.mem_flatten.mp hmem
  rw [List.eq_of_mem_replicate hcopy] at hmem
  exact List.mem_reverse.mp hmem

theorem layers_fresh (count id : Nat) : ((Process.fresh count).thread id).layers = [] := by
  refine layers_of_bare (fun thread hthread => ?_) id
  rw [List.eq_of_mem_replicate hthread]

/-- Attempts with one filter on a process without layers pile up its programs. -/
theorem after_replicate {count : Nat} (hlower : attempt.filter.lower.result = .ok programs)
    (hne : programs ≠ [])
    (hpasses : ∀ program ∈ programs, Passes (attempt.hosts 0).noNewPrivsCall program ∧
      ∀ n, Passes ((attempt.hosts n).attachCall attempt.allThreads) program)
    (hcaller : attempt.caller < count) (n : Nat)
    (hsize : n * stackSize programs ≤ maxKernelSize + layerPenalty) :
    ((Process.fresh count).after (.replicate n attempt)).Lives attempt.caller ∧
      (attempt.allThreads = true →
        ((Process.fresh count).after (.replicate n attempt)).InStep attempt.caller) ∧
      (((Process.fresh count).after (.replicate n attempt)).thread attempt.caller).layers.map
        (·.program) = (List.replicate n programs.reverse).flatten := by
  induction n with
  | zero =>
    refine ⟨?_, fun _ id _ => ?_, ?_⟩
    · simpa [Process.after, Process.fresh, Lives] using hcaller
    · simp [Process.after, layers_fresh]
    · simp [Process.after, layers_fresh]
  | succ n ih =>
    rw [Nat.succ_mul] at hsize
    obtain ⟨hlives, hstep, hstack⟩ := ih (by omega)
    rw [List.replicate_succ', after_concat, installIfLiving, if_pos hlives]
    generalize (Process.fresh count).after (.replicate n attempt) = process at *
    have haccepts := accepts_setNoNewPrivs hlives.1 hstep
    rw [install_eq attempt.reachable.sound hlower hne hlives.1 hstep
      (fun layer hlayer => (hpasses _ (mem_of_pile hstack hlayer)).1)
      (fun n _ layer hlayer => (hpasses _ (mem_of_pile hstack hlayer)).2 (n + 1))
      (by rw [hstack, stackSize_flatten_replicate, stackSize_reverse]; omega)]
    refine ⟨?_, (haccepts.pushAll _).inStep, ?_⟩
    · rwa [lives_pushAll, lives_setNoNewPrivs]
    · rw [haccepts.programs_pushAll, layers_setNoNewPrivs, hstack, List.replicate_succ,
        List.flatten_cons]

end Repetition

/-- An install that fails leaves all layers as they are, unless it is the call for a program other
than the first one that fails: programs that were attached before answer it with an error, or the
program would take the caller over the kernel's limit. Then those before it stay attached, but for
those whose calls were faked. -/
theorem install_error_layers {hosts : Hosts} {allThreads : Bool} {caller : Nat} {filter : Filter}
    {process : Process} {e : PolicyError} (hreachable : filter.Reachable)
    (hfail : (install hosts allThreads caller filter process).2.result =
      .returned (.error e)) :
    let next := (install hosts allThreads caller filter process).1
    (∀ id, (next.thread id).layers = (process.thread id).layers) ∨
    ∃ taken refused rest, filter.lower.result = .ok (taken ++ refused :: rest) ∧
      let attached := (process.thread caller).genuine allThreads hosts.rest taken
      let fate := (process.thread caller).fate ((hosts (taken.length + 1)).attachCall allThreads)
      attached ≠ [] ∧
      ((∃ code, code ≠ 0 ∧ fate = .answered code ∧ e = .install (.system ⟨code⟩)) ∨
        fate = .runs ∧ e = .install (.system .outOfMemory) ∧
          maxKernelSize < sizeWith (next.thread caller) refused) ∧
      (next.thread caller).layers.map (·.program) =
        attached.reverse ++ (process.thread caller).layers.map (·.program) ∧
      ∀ id, (next.thread id).layers =
        if id = caller ∨ allThreads = true ∧ process.Lives id then (next.thread caller).layers
        else (process.thread id).layers := by
  intro next
  rcases install_cases hreachable.sound with ⟨heq, -⟩ | ⟨programs, hlower, houtcome⟩
  · exact Or.inl fun id => congrArg (fun process => (process.thread id).layers) heq
  · cases houtcome with
    | untouched layers failed => exact Or.inl layers
    | @grown between taken rest attached halike heq hgenuine haccepts hgrown hends =>
      by_cases hne : attached = []
      · exact Or.inl (hgrown.unchanged hne)
      right
      rw [hfail] at hends
      have hfate := Thread.fate_congr (halike.layers caller)
      cases hends with
      | @answered refused rest code hcode hanswer =>
        refine ⟨taken, refused, rest, heq ▸ hlower, hgenuine ▸ hne, Or.inl ?_,
          hgenuine ▸ hgrown.programs, hgrown.layers hne⟩
        exact ⟨code, hcode, hfate _ ▸ hanswer, rfl⟩
      | @refused refused rest cause hruns hlimit =>
        obtain ⟨rfl, hsize⟩ := hlimit (haccepts hne)
        exact ⟨taken, refused, rest, heq ▸ hlower, hgenuine ▸ hne,
          Or.inr ⟨hfate _ ▸ hruns, rfl, hsize⟩, hgenuine ▸ hgrown.programs, hgrown.layers hne⟩

/-- The second of two programs is refused because of what is left in a register. -/
theorem install_error_layers_distracted :
    ∃ first second, watching.lower.result = .ok [first, second] ∧
      (install countingHosts false 0 watching (distracted 1)).2.result =
        .returned (.error (.install (.system .notPermitted))) ∧
      ((install countingHosts false 0 watching (distracted 1)).1.thread 0).layers.map (·.program) =
        first :: ((distracted 1).thread 0).layers.map (·.program) := by
  obtain ⟨first, second, hlower, hfail, hchanged, hgenuine⟩ : ∃ first second,
      watching.lower.result = .ok [first, second] ∧
      (install countingHosts false 0 watching (distracted 1)).2.result =
        .returned (.error (.install (.system .notPermitted))) ∧
      ((install countingHosts false 0 watching (distracted 1)).1.thread 0).layers ≠
        ((distracted 1).thread 0).layers ∧
      ((distracted 1).thread 0).genuine false countingHosts.rest [first] = [first] :=
    ⟨(watching.programs.toOption.getD []).headI, (watching.programs.toOption.getD []).tail.headI,
      by decide +kernel⟩
  refine ⟨first, second, hlower, hfail, ?_⟩
  rcases install_error_layers reachable_watching hfail with
    hsame | ⟨taken, refused, rest, htaken, hne, -, hprograms, -⟩
  · exact absurd (hsame 0) hchanged
  · rw [hlower, Except.ok.injEq] at htaken
    have htaken : taken = [first] := by
      cases taken with
      | nil => exact absurd rfl hne
      | cons program taken =>
        cases taken with
        | nil => rw [(List.cons.inj htaken).1]
        | cons other taken => simp at htaken
    rw [htaken] at hprograms
    exact hprograms.trans (congrArg (·.reverse ++ _) hgenuine)

/-- A filter with one long program. -/
def lengthy : Filter where
  verdict := .allow
  architectures := [.native]
  noNewPrivs := true
  rules := .replicate 100 ⟨39, .errno 2, [⟨Filter.firstArgument, .ge, 7⟩]⟩

/-- A filter with a short program before the same long one. -/
def crowding : Filter := { lengthy with rules := ⟨110, .errno 1, []⟩ :: lengthy.rules }

theorem reachable_lengthy : lengthy.Reachable :=
  Filter.reachable_iff.mpr ⟨.allow,
    lengthy.rules.map fun rule => .addConditionalRule rule.number rule.verdict rule.conditions,
    by decide +kernel⟩

theorem reachable_crowding : crowding.Reachable :=
  Filter.reachable_iff.mpr ⟨.allow, .addRule 110 (.errno 1) ::
    lengthy.rules.map fun rule => .addConditionalRule rule.number rule.verdict rule.conditions,
    by decide +kernel⟩

theorem install_crowding_halfway :
    let process := (Process.fresh 1).after
      (.replicate 35 ⟨someHost, false, 0, lengthy, reachable_lengthy⟩)
    (install someHost false 0 crowding process).2.result =
        .returned (.error (.install (.system .outOfMemory))) ∧
      ((install someHost false 0 crowding process).1.thread 0).layers ≠
        (process.thread 0).layers := by
  intro process
  obtain ⟨short, long, hlengthy, hcrowding, hpasses, hshort, hlong⟩ : ∃ short long,
      lengthy.lower.result = .ok [long] ∧ crowding.lower.result = .ok [short, long] ∧
      (long.run someHost.noNewPrivsCall = some 0x7fff0000 ∧
        long.run (someHost.attachCall false) = some 0x7fff0000) ∧
      Program.kernelSize short = 18 ∧ Program.kernelSize long = 914 :=
    ⟨(crowding.programs.toOption.getD []).headI, (lengthy.programs.toOption.getD []).headI,
      by decide +kernel⟩
  have hgranted : ∀ call, long.run call = some 0x7fff0000 → Passes call long :=
    fun call hrun => ⟨_, hrun, rfl⟩
  have hlong' : stackSize [long] = 918 := by
    rw [stackSize, stackSize, hlong]
    rfl
  have hshort' : stackSize [short] = 22 := by
    rw [stackSize, stackSize, hshort]
    rfl
  have hpile : process.Lives 0 ∧ (false = true → process.InStep 0) ∧
      (process.thread 0).layers.map (·.program) = (List.replicate 35 [long].reverse).flatten := by
    refine @after_replicate ⟨someHost, false, 0, lengthy, reachable_lengthy⟩ [long] 1 hlengthy
      (List.cons_ne_nil _ _) ?_ Nat.one_pos 35 ?_
    · intro program hprogram
      rw [List.mem_singleton.mp hprogram]
      exact ⟨hgranted _ hpasses.1, fun _ => hgranted _ hpasses.2⟩
    · rw [hlong']
      decide
  clear_value process
  obtain ⟨hlives, hstep, hstack⟩ := hpile
  have hall : ∀ layer ∈ (process.thread 0).layers, layer.program = long :=
    fun layer hlayer => List.mem_singleton.mp (mem_of_pile hstack hlayer)
  have hsize : stackSize ((process.thread 0).layers.map (·.program)) = 35 * 918 := by
    rw [hstack, stackSize_flatten_replicate, stackSize_reverse, hlong']
  have hcut : crowding.lower.result = .ok ([short] ++ long :: []) := hcrowding
  obtain ⟨hresult, hprograms⟩ := install_cut_short someHost false
    reachable_crowding.sound hcut hlives.1 hstep
    (fun layer hlayer => hall layer hlayer ▸ hgranted _ hpasses.1)
    (fun _ layer hlayer => hall layer hlayer ▸ hgranted _ hpasses.2)
    (by rw [hsize, hshort']; decide) (by rw [hsize, hshort', hlong]; decide)
  refine ⟨hresult, fun heq => ?_⟩
  have hlength := congrArg List.length hprograms
  rw [heq] at hlength
  simp at hlength

end SyscallPolicy.Kernel
