import GasAdapter.Soundness.Emulation

/-! # When the output changes

With several inputs the output is written once, by `ld`, after every input has been assembled; until then it
keeps what it had. When a run has returned 0 and no input includes what it has written, the same run returns 0
again and changes nothing.
-/

namespace GasAdapter

namespace AcceptedRun

variable {κ γ : Type} [DecidableEq κ] {os : Platform} {args : List PlatformString}

section

variable {env : Environment} (tools : Toolchain κ γ) (files : κ → Option γ) (accepted : AcceptedRun os env args)
  (understood : accepted.Understood tools.toToolReaders)

theorem linker_not_objectProcess : accepted.linker ∉ accepted.objectProcesses := by
  intro member
  obtain ⟨input, -, same⟩ := List.mem_map.mp member
  exact Gas.llvmMc_ne_ld accepted.selected accepted.programDir (congrArg Process.executablePath same)

/-- What a run on several inputs has done at some time: some of the inputs in order, or everything. -/
theorem done_several (several : 2 ≤ accepted.gas.inputFiles.length) {done : List Process}
    (front : done <+: Gas.started os env args) :
    done = accepted.objectProcesses ++ [accepted.linker] ∨ done <+: accepted.objectProcesses := by
  have planned := front.trans accepted.started_planned
  rw [planned_several several] at planned
  exact List.prefix_concat_iff.mp planned

include understood

/-- The output keeps what it had until `ld` starts. -/
theorem output_kept (several : 2 ≤ accepted.gas.inputFiles.length)
    (fresh : ∀ input ∈ accepted.gas.inputFiles, tools.reach os accepted.finalOutput ≠ tools.object os input)
    {done : List Process} (front : done <+: Gas.started os env args) (before : accepted.linker ∉ done) :
    (tools.commands os).after files done (tools.reach os accepted.finalOutput) =
      files (tools.reach os accepted.finalOutput) := by
  rcases accepted.done_several several front with rfl | objects
  · exact (before (List.mem_append_right _ (List.mem_singleton_self _))).elim
  · exact accepted.objectProcesses_frame tools files understood (fun _ member => objects.subset member) fresh

end

section

variable {surroundings : Environment} (tools : Toolchain κ γ) (files : κ → Option γ)
  (accepted : AcceptedRun os (tools.environment os files surroundings) args)
  (understood : accepted.Understood tools.toToolReaders)
  (present : surroundings.fileExists accepted.llvmMc = .ok true)
  (named : ∀ input ∈ accepted.gas.inputFiles, input.hasFilename os = true)

include understood present named

/-- The output of several inputs is replaced at most once: at the end, and only when each of them can be
assembled. Until then, and when one cannot be assembled, it has what it had before the run. -/
theorem output_replaced (several : 2 ≤ accepted.gas.inputFiles.length)
    (apart : accepted.Apart tools files)
    (fresh : ∀ input ∈ accepted.gas.inputFiles, tools.reach os accepted.finalOutput ≠ tools.object os input) :
    let started := Gas.started os (tools.environment os files surroundings) args
    (∀ done, done <+: started → accepted.linker ∉ done →
      (tools.commands os).after files done (tools.reach os accepted.finalOutput) =
        files (tools.reach os accepted.finalOutput)) ∧
    (∀ done, done <+: started → accepted.linker ∈ done → done = started) ∧
    (accepted.linker ∈ started ↔
      ∀ input ∈ accepted.gas.inputFiles, ∃ content, accepted.assembled tools files input = .ok content) := by
  intro started
  refine ⟨?_, ?_, ?_⟩
  · exact fun done front before => accepted.output_kept tools files understood several fresh front before
  · intro done front linked
    rcases accepted.done_several several front with rfl | objects
    · apply front.eq_of_length_le
      have shorter := accepted.started_planned.length_le
      rwa [planned_several several] at shorter
    · exact (accepted.linker_not_objectProcess (objects.subset linked)).elim
  · rcases accepted.several_course tools files understood present named several apart with
      ⟨fine, run⟩ | ⟨front, input, rest, status, inputs, -, failed, run⟩
    · have shape : started = accepted.objectProcesses ++ [accepted.linker] := by
        rw [show started = Script.startedAfter _ from rfl, run]
        rfl
      rw [shape]
      exact iff_of_true (List.mem_append_right _ (List.mem_singleton_self _)) fine
    · have shape : started = (front ++ [input]).map accepted.objectProcess := by
        rw [show started = Script.startedAfter _ from rfl, run]
        rfl
      have here : input ∈ accepted.gas.inputFiles := by
        rw [inputs]
        exact List.mem_append_right _ (List.mem_cons_self ..)
      apply iff_of_false
      · rw [shape]
        intro linked
        obtain ⟨other, -, same⟩ := List.mem_map.mp linked
        exact Gas.llvmMc_ne_ld accepted.selected accepted.programDir (congrArg Process.executablePath same)
      · intro fine
        obtain ⟨content, assembled⟩ := fine input here
        rw [failed] at assembled
        cases assembled

end

/-- When the second input is missing, the output is left alone. -/
theorem output_replaced_missing :
    let args := [pstr "/ndk/as", pstr "@gas-arch=x86_64-linux-android-as", pstr "-o", pstr "ab.o", pstr "a.s",
      pstr "b.s"]
    let files := fun path => [(pstr "a.s", pstr "<a.inc"), (pstr "a.inc", pstr "A"), (pstr "ab.o", pstr "old")].lookup path
    let started := Gas.started .posix (Toolchain.including.environment .posix files .ready) args
    (Toolchain.including.commands .posix).after files started (pstr "ab.o") = some (pstr "old") := by
  intro args files started
  let accepted : AcceptedRun .posix (Toolchain.including.environment .posix files .ready) args :=
    .ofRequest rfl rfl rfl rfl rfl
  have understood : accepted.Understood Toolchain.including.toToolReaders :=
    ⟨ToolReaders.textual_documented .posix, by decide, by decide⟩
  have apart : accepted.Apart Toolchain.including files := by
    refine .cons (List.forall_mem_singleton.mpr ⟨?_, by decide⟩) (List.pairwise_singleton ..)
    rintro (input | leads)
    · cases input
    · cases leads
  obtain ⟨kept, -, linked⟩ :=
    output_replaced Toolchain.including files accepted understood rfl (by decide) (by decide) apart (by decide)
  have notLinked : accepted.linker ∉ started := by
    intro member
    obtain ⟨content, assembled⟩ := linked.mp member ⟨pstr "b.s"⟩ (by decide)
    cases assembled
  exact kept started List.prefix_rfl notLinked

/-! ## The same run again -/

/-- The same command line on other files. -/
def onFiles {surroundings : Environment} {tools : Toolchain κ γ} {files : κ → Option γ}
    (accepted : AcceptedRun os (tools.environment os files surroundings) args) (other : κ → Option γ) :
    AcceptedRun os (tools.environment os other surroundings) args :=
  { accepted with }

end AcceptedRun

/-- On some files, no input consults what a run writes, and the run writes no file twice. -/
structure Toolchain.Clean {κ γ : Type} (tools : Toolchain κ γ) (os : Platform)
    (options : List (PlatformString × PlatformString)) (files : κ → Option γ) (inputs : List FsPath)
    (output : PlatformString) : Prop where
  result : ∀ source ∈ inputs, tools.reach os output ∉ tools.consults os options files source
  distinct : 2 ≤ inputs.length →
    inputs.Pairwise fun first second => tools.object os first ≠ tools.object os second
  objects : 2 ≤ inputs.length → ∀ input ∈ inputs, tools.reach os output ≠ tools.object os input ∧
    ∀ source ∈ inputs, tools.object os input ∉ tools.consults os options files source

namespace AcceptedRun

variable {κ γ : Type} {os : Platform} {args : List PlatformString} {env : Environment}

def Clean (tools : Toolchain κ γ) (files : κ → Option γ) (accepted : AcceptedRun os env args) : Prop :=
  tools.Clean os accepted.settings.frontOptions files accepted.gas.inputFiles accepted.finalOutput

/-- Inputs that consult no object do not disturb each other. -/
theorem Clean.apart {tools : Toolchain κ γ} {files : κ → Option γ} {accepted : AcceptedRun os env args}
    (clean : accepted.Clean tools files) (several : 2 ≤ accepted.gas.inputFiles.length) :
    accepted.Apart tools files := by
  refine (clean.distinct several).imp_of_mem ?_
  intro first second here there different
  exact ⟨(clean.objects several first here).2 second there, different⟩

variable [DecidableEq κ]

/-- What has been read or written is not written again. -/
theorem planned_settled (tools : Toolchain κ γ) (files : κ → Option γ) (accepted : AcceptedRun os env args)
    (understood : accepted.Understood tools.toToolReaders) (clean : accepted.Clean tools files)
    (nonempty : accepted.gas.inputFiles ≠ []) : (tools.commands os).Settled files accepted.planned := by
  rcases inputs : accepted.gas.inputFiles with _ | ⟨input, _ | ⟨second, others⟩⟩
  · exact (nonempty inputs).elim
  · have listed : input ∈ accepted.gas.inputFiles := by
      rw [inputs]
      exact List.mem_singleton_self _
    have asked := accepted.task_assembler understood.documented understood.unquoted accepted.finalOutput_ne_nil
      understood.literal.1 listed (understood.literal.2 input listed)
    have none : (tools.commands os).Ordered files [] := .nil
    rw [planned_one inputs]
    refine none.settled_concat _ (by simp) (by simp) ?_
    intro key read written
    rw [tools.commands_writes asked] at written
    obtain rfl := Set.mem_singleton_iff.mp written
    rw [FileCommands.after_nil, tools.commands_reads asked] at read
    exact clean.result input listed read
  · have several : 2 ≤ accepted.gas.inputFiles.length := by simp [inputs]
    have objects := clean.objects several
    rw [planned_several several]
    refine (accepted.objectProcesses_ordered tools files understood (clean.apart several)).settled_concat _ ?_ ?_ ?_
    · intro process member key read other there written
      obtain ⟨source, listed, rfl⟩ := List.mem_map.mp member
      rw [accepted.reads_objectProcess tools files understood listed] at read
      rcases List.mem_append.mp there with object | linker
      · obtain ⟨input, made, rfl⟩ := List.mem_map.mp object
        rw [accepted.writes_objectProcess tools understood made] at written
        obtain rfl := Set.mem_singleton_iff.mp written
        exact (objects input made).2 source listed read
      · rw [List.mem_singleton.mp linker, accepted.writes_linker tools understood] at written
        obtain rfl := Set.mem_singleton_iff.mp written
        exact clean.result source listed read
    · intro process member key object written
      obtain ⟨input, listed, rfl⟩ := List.mem_map.mp member
      rw [accepted.writes_objectProcess tools understood listed] at object
      obtain rfl := Set.mem_singleton_iff.mp object
      rw [accepted.writes_linker tools understood] at written
      exact (objects input listed).1 (Set.mem_singleton_iff.mp written).symm
    · intro key read written
      rw [accepted.writes_linker tools understood] at written
      obtain rfl := Set.mem_singleton_iff.mp written
      rw [accepted.reads_linker tools _ understood] at read
      obtain ⟨input, listed, same⟩ := read
      exact (objects input listed).1 same.symm

/-- A run that has returned 0 can be repeated: it starts the same processes on the files it has left, returns 0
again and changes nothing. -/
theorem run_again (tools : Toolchain κ γ) (files : κ → Option γ) {surroundings : Environment}
    (accepted : AcceptedRun os (tools.environment os files surroundings) args)
    (understood : accepted.Understood tools.toToolReaders)
    (present : surroundings.fileExists accepted.llvmMc = .ok true)
    (named : ∀ input ∈ accepted.gas.inputFiles, input.hasFilename os = true)
    (nonempty : accepted.gas.inputFiles ≠ []) (clean : accepted.Clean tools files) {started : List Process}
    (succeeds : Gas.run os (tools.environment os files surroundings) args [] = .ok 0 started) :
    let left := (tools.commands os).after files started
    Gas.run os (tools.environment os left surroundings) args [] = .ok 0 started ∧
      (tools.commands os).after left started = left := by
  intro left
  have script := accepted.run_script tools files present named nonempty
  have noStop (code : Int) : (.stop code : Plan.Action) ∉ accepted.planned.map .start := by simp
  rw [script] at succeeds
  obtain ⟨commands, same, final, fine⟩ :=
    Script.succeed_of_run_eq_zero _ succeeds fun code member => (noStop code member).elim
  obtain rfl : accepted.planned = commands :=
    List.map_injective_iff.mpr (fun _ _ equal => ScriptAction.start.inj equal) same
  obtain rfl : started = accepted.planned := final
  obtain ⟨fineAgain, kept⟩ :=
    (tools.commands os).after_again (accepted.planned_settled tools files understood clean nonempty) fine
  refine ⟨?_, kept⟩
  have again := Script.run_append_of_succeed _ ([] : List Plan.Action) fineAgain
  rw [List.append_nil] at again
  exact ((accepted.onFiles left).run_script tools left present named nonempty).trans again

private theorem run_one : ∃ started, Gas.run .posix (Toolchain.including.environment .posix
    (fun path => [(pstr "a.s", pstr "<a.inc"), (pstr "a.inc", pstr "A")].lookup path) .ready)
    [pstr "/ndk/as", pstr "@gas-arch=x86_64-linux-android-as", pstr "a.s"] [] = .ok 0 started :=
  ⟨_, rfl⟩

/-- Assembling one file twice. -/
theorem run_again_one :
    let args := [pstr "/ndk/as", pstr "@gas-arch=x86_64-linux-android-as", pstr "a.s"]
    let files := fun path => [(pstr "a.s", pstr "<a.inc"), (pstr "a.inc", pstr "A")].lookup path
    ∃ started, Gas.run .posix (Toolchain.including.environment .posix files .ready) args [] = .ok 0 started ∧
      Gas.run .posix (Toolchain.including.environment .posix
        ((Toolchain.including.commands .posix).after files started) .ready) args [] = .ok 0 started := by
  intro args files
  let accepted : AcceptedRun .posix (Toolchain.including.environment .posix files .ready) args :=
    .ofRequest rfl rfl rfl rfl rfl
  have understood : accepted.Understood Toolchain.including.toToolReaders :=
    ⟨ToolReaders.textual_documented .posix, by decide, by decide⟩
  have clean : accepted.Clean Toolchain.including files := by
    refine ⟨List.forall_mem_singleton.mpr ?_, ?_, ?_⟩
    · rintro (input | leads)
      · cases input
      · cases leads
    · exact fun several => absurd several (by decide)
    · exact fun several => absurd several (by decide)
  obtain ⟨started, first⟩ := run_one
  exact ⟨started, first, (run_again Toolchain.including files accepted understood rfl (by decide) (by decide) clean
    first).1⟩

end AcceptedRun

end GasAdapter
