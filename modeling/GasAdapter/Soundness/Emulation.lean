import GasAdapter.Soundness.Translation
import GasAdapter.Spec.Toolchain

/-! # One assembler out of two tools

`llvm-mc` takes one input; GAS takes several and makes one object of them. The wrapper emulates this with
a run of `llvm-mc` for every input and a link at the end. Whatever the tools make of the files, the run ends as
assembling all inputs together would, with the same contents in the output or the same code, as long as no
object is another input's object or a file that a later input includes at the beginning.
-/

namespace GasAdapter

namespace Toolchain

variable {κ γ : Type} (tools : Toolchain κ γ)

/-- The file a tool finds when the wrapper passes it a path. -/
def reach (os : Platform) (path : PlatformString) : κ := tools.locate (os.received path)

/-- What `llvm-mc` reads for an input of the command line. -/
def consults (os : Platform) (options : List (PlatformString × PlatformString)) (files : κ → Option γ)
    (input : FsPath) : Set κ :=
  tools.consulted options (os.received (input.makePreferred os).native) files

/-- The file of an input's object. -/
def object (os : Platform) (input : FsPath) : κ :=
  tools.reach os (LlvmMcRunner.makeOutputFilePath os input).native

/-- No object is the object of a later input or, on the files of the beginning, one that a later input
consults. -/
def Apart (os : Platform) (options : List (PlatformString × PlatformString)) (files : κ → Option γ)
    (inputs : List FsPath) : Prop :=
  inputs.Pairwise fun first second =>
    tools.object os first ∉ tools.consults os options files second ∧ tools.object os first ≠ tools.object os second

end Toolchain

namespace AcceptedRun

/-- What it takes for the tools to be asked what is meant. -/
structure Understood {os : Platform} {env : Environment} {args : List PlatformString}
    (accepted : AcceptedRun os env args) (readers : ToolReaders) : Prop where
  documented : readers.Documented os
  unquoted : os = .windows → '"' ∉ accepted.programDir.native
  literal : accepted.Literal

/-! ## The commands of a run -/

section

variable {κ γ : Type} {os : Platform} {args : List PlatformString} {env : Environment}
  (tools : Toolchain κ γ) (files : κ → Option γ) (accepted : AcceptedRun os env args)

/-- The inputs as `llvm-mc` is given them. -/
def spelled (accepted : AcceptedRun os env args) : List PlatformString :=
  accepted.gas.inputFiles.map fun input => os.received (input.makePreferred os).native

/-- What an input by itself is assembled to. -/
def assembled (input : FsPath) : Except ErrorCode γ :=
  tools.assembled accepted.settings.frontOptions (os.received (input.makePreferred os).native) files

/-- What the inputs of a run are to become. -/
def made : Except ErrorCode γ := tools.gas accepted.settings.frontOptions accepted.spelled files

/-- No step of the run disturbs a later input. -/
def Apart : Prop := tools.Apart os accepted.settings.frontOptions files accepted.gas.inputFiles

section

variable (understood : accepted.Understood tools.toToolReaders)

include understood

theorem task_objectProcess {input : FsPath} (listed : input ∈ accepted.gas.inputFiles) :
    tools.task os (accepted.objectProcess input) =
      some (accepted.assembleTask (LlvmMcRunner.makeOutputFilePath os input).native input) :=
  accepted.task_assembler understood.documented understood.unquoted
    (LlvmMcRunner.makeOutputFilePath_ne_nil os input)
    (LlvmMcRunner.literal_makeOutputFilePath (understood.literal.2 input listed)) listed
    (understood.literal.2 input listed)

theorem task_linkProcess : tools.task os accepted.linker = some accepted.linkTask :=
  accepted.task_linker understood.documented understood.unquoted understood.literal

end

variable [DecidableEq κ] (understood : accepted.Understood tools.toToolReaders)

include understood

section

variable {input : FsPath} (listed : input ∈ accepted.gas.inputFiles)

include listed

theorem perform_objectProcess : (tools.commands os).perform (accepted.objectProcess input) files =
    tools.perform (accepted.assembleTask (LlvmMcRunner.makeOutputFilePath os input).native input) files :=
  tools.commands_perform (accepted.task_objectProcess tools understood listed) files

/-- The run of `llvm-mc` for an input ends as assembling it does. -/
theorem code_objectProcess : ((tools.commands os).perform (accepted.objectProcess input) files).1 =
    exitStatus (accepted.assembled tools files input) := by
  rw [accepted.perform_objectProcess tools files understood listed, tools.perform_code]
  rfl

theorem reads_objectProcess : (tools.commands os).reads (accepted.objectProcess input) files =
    tools.consults os accepted.settings.frontOptions files input :=
  tools.commands_reads (accepted.task_objectProcess tools understood listed) files

theorem writes_objectProcess :
    (tools.commands os).writes (accepted.objectProcess input) = {tools.object os input} :=
  tools.commands_writes (accepted.task_objectProcess tools understood listed)

end

theorem reads_linker : (tools.commands os).reads accepted.linker files =
    { key | ∃ input ∈ accepted.gas.inputFiles, tools.object os input = key } := by
  rw [tools.commands_reads (accepted.task_linkProcess tools understood)]
  ext key
  constructor
  · rintro ⟨text, member, rfl⟩
    obtain ⟨object, made, rfl⟩ := List.mem_map.mp member
    obtain ⟨input, listed, rfl⟩ := List.mem_map.mp made
    exact ⟨input, listed, rfl⟩
  · rintro ⟨input, listed, rfl⟩
    exact ⟨_, List.mem_map_of_mem (List.mem_map_of_mem listed), rfl⟩

theorem writes_linker : (tools.commands os).writes accepted.linker = {tools.reach os accepted.finalOutput} :=
  tools.commands_writes (accepted.task_linkProcess tools understood)

/-- No `llvm-mc` run disturbs a later one. -/
theorem objectProcesses_ordered (apart : accepted.Apart tools files) :
    (tools.commands os).Ordered files accepted.objectProcesses := by
  unfold FileCommands.Ordered objectProcesses
  rw [List.pairwise_map]
  refine apart.imp_of_mem ?_
  rintro first second here there ⟨unread, different⟩ key written
  rw [accepted.writes_objectProcess tools understood here] at written
  obtain rfl := Set.mem_singleton_iff.mp written
  rw [accepted.reads_objectProcess tools files understood there, accepted.writes_objectProcess tools understood there]
  exact ⟨unread, different⟩

/-- Only objects are written before `ld` starts. -/
theorem objectProcesses_frame {done : List Process} (front : ∀ process ∈ done, process ∈ accepted.objectProcesses)
    {key : κ} (other : ∀ input ∈ accepted.gas.inputFiles, key ≠ tools.object os input) :
    (tools.commands os).after files done key = files key := by
  apply FileCommands.after_frame
  intro process member written
  obtain ⟨input, listed, rfl⟩ := List.mem_map.mp (front process member)
  rw [accepted.writes_objectProcess tools understood listed] at written
  exact other input listed written

/-- When all inputs can be assembled, `ld` finds their objects. -/
theorem after_objectProcesses (apart : accepted.Apart tools files)
    (fine : ∀ input ∈ accepted.gas.inputFiles, ∃ content, accepted.assembled tools files input = .ok content) :
    ∀ input ∈ accepted.gas.inputFiles,
      (tools.commands os).after files accepted.objectProcesses (tools.object os input) =
        (accepted.assembled tools files input).toOption := by
  intro input listed
  obtain ⟨content, assembled⟩ := fine input listed
  have code := accepted.code_objectProcess tools files understood listed
  have written : tools.object os input ∈ (tools.commands os).writes (accepted.objectProcess input) := by
    rw [accepted.writes_objectProcess tools understood listed]
    exact Set.mem_singleton _
  have product : tools.product (accepted.assembleTask (LlvmMcRunner.makeOutputFilePath os input).native input)
      files = .ok content := assembled
  rw [(tools.commands os).after_written files (accepted.objectProcesses_ordered tools files understood apart)
    (List.mem_map_of_mem listed) (code.trans (exitStatus_eq_zero.mpr ⟨content, assembled⟩)) written,
    accepted.perform_objectProcess tools files understood listed, tools.perform_of_ok product, assembled]
  exact Function.update_self ..

/-- When all inputs can be assembled, the link at the end makes what they are to become. -/
theorem made_of_assembled (several : 2 ≤ accepted.gas.inputFiles.length)
    (apart : accepted.Apart tools files)
    (fine : ∀ input ∈ accepted.gas.inputFiles, ∃ content, accepted.assembled tools files input = .ok content) :
    accepted.made tools files =
      tools.product accepted.linkTask ((tools.commands os).after files accepted.objectProcesses) := by
  have each : ∀ text ∈ accepted.spelled,
      ∃ content, tools.assembled accepted.settings.frontOptions text files = .ok content := by
    intro text member
    obtain ⟨input, listed, rfl⟩ := List.mem_map.mp member
    exact fine input listed
  have found := accepted.after_objectProcesses tools files understood apart fine
  rw [made, tools.gas_of_ok _ (by rwa [spelled, List.length_map]) each]
  change _ = tools.linked _
  rw [spelled, objects, List.map_map, List.map_map, List.map_map]
  congr 1
  exact List.map_congr_left fun input listed => (found input listed).symm

omit [DecidableEq κ] understood in
/-- The first input that cannot be assembled is what the inputs become. -/
theorem made_of_failed {front rest : List FsPath} {input : FsPath} {status : ErrorCode}
    (inputs : accepted.gas.inputFiles = front ++ input :: rest)
    (fine : ∀ other ∈ front, ∃ content, accepted.assembled tools files other = .ok content)
    (failed : accepted.assembled tools files input = .error status) :
    accepted.made tools files = .error status := by
  rw [made, spelled, inputs, List.map_append, List.map_cons]
  refine tools.gas_of_error _ ?_ failed
  intro text member
  obtain ⟨other, earlier, rfl⟩ := List.mem_map.mp member
  exact fine other earlier

end

/-! ## Whole runs -/

section

variable {κ γ : Type} [DecidableEq κ] {os : Platform} {args : List PlatformString} {surroundings : Environment}
  (tools : Toolchain κ γ) (files : κ → Option γ)
  (accepted : AcceptedRun os (tools.environment os files surroundings) args)
  (understood : accepted.Understood tools.toToolReaders)
  (present : surroundings.fileExists accepted.llvmMc = .ok true)
  (named : ∀ input ∈ accepted.gas.inputFiles, input.hasFilename os = true)

/-- What a run has to do: end as the inputs do when they are assembled together, with the result in the
output, and change no file besides the output and, for several inputs, their objects. -/
structure Emulates (started : List Process) : Prop where
  returns : Gas.run os (tools.environment os files surroundings) args [] =
    .ok (exitStatus (accepted.made tools files)) started
  output : ∀ content, accepted.made tools files = .ok content →
    (tools.commands os).after files started (tools.reach os accepted.finalOutput) = some content
  others : ∀ key, key ≠ tools.reach os accepted.finalOutput →
    (2 ≤ accepted.gas.inputFiles.length → ∀ input ∈ accepted.gas.inputFiles, key ≠ tools.object os input) →
    (tools.commands os).after files started key = files key

include present named

/-- With `llvm-mc` present, a run on named inputs starts its processes in order. -/
theorem run_script (nonempty : accepted.gas.inputFiles ≠ []) :
    Gas.run os (tools.environment os files surroundings) args [] =
      Script.run ((tools.commands os).exitCode files) (accepted.planned.map .start) [] := by
  have agrees := accepted.agrees_attributes
  have script := accepted.run_eq_start agrees present (by rwa [← agrees.inputs]) (by rwa [← agrees.inputs]) []
  rwa [accepted.processes_eq agrees] at script

include understood

/-- How a run on several inputs goes: all of them are assembled and `ld` is started, or the first that cannot
be assembled is the last. -/
theorem several_course (several : 2 ≤ accepted.gas.inputFiles.length)
    (apart : accepted.Apart tools files) :
    ((∀ input ∈ accepted.gas.inputFiles, ∃ content, accepted.assembled tools files input = .ok content) ∧
      Gas.run os (tools.environment os files surroundings) args [] =
        .ok (exitStatus (accepted.made tools files)) (accepted.objectProcesses ++ [accepted.linker])) ∨
    ∃ front input rest status, accepted.gas.inputFiles = front ++ input :: rest ∧
      (∀ other ∈ front, ∃ content, accepted.assembled tools files other = .ok content) ∧
      accepted.assembled tools files input = .error status ∧
      Gas.run os (tools.environment os files surroundings) args [] =
        .ok status ((front ++ [input]).map accepted.objectProcess) := by
  have nonempty : accepted.gas.inputFiles ≠ [] := by
    intro none
    rw [none] at several
    contradiction
  have script := accepted.run_script tools files present named nonempty
  have succeeds {input : FsPath} (listed : input ∈ accepted.gas.inputFiles)
      (zero : ((tools.commands os).perform (accepted.objectProcess input) files).1 = 0) :
      ∃ content, accepted.assembled tools files input = .ok content :=
    exitStatus_eq_zero.mp ((accepted.code_objectProcess tools files understood listed).symm.trans zero)
  rw [planned_several several, List.map_append, List.map_singleton] at script
  rcases (tools.commands os).run_ordered files (accepted.objectProcesses_ordered tools files understood apart)
    [.start accepted.linker] with ⟨fine, goesOn⟩ | ⟨before, command, later, split, fine, fails, stops⟩
  · have all (input : FsPath) (listed : input ∈ accepted.gas.inputFiles) :=
      succeeds listed (fine _ (List.mem_map_of_mem listed))
    have performed := tools.commands_perform (accepted.task_linkProcess tools understood)
      ((tools.commands os).after files accepted.objectProcesses)
    refine .inl ⟨all, ?_⟩
    rw [script, goesOn, Script.run_singleton, FileCommands.exitCode, performed, tools.perform_code,
      accepted.made_of_assembled tools files understood several apart all]
  · obtain ⟨front, back, inputs, rfl, tail⟩ := List.map_eq_append_iff.mp split
    obtain ⟨input, rest, rfl, rfl, -⟩ := List.map_eq_cons_iff.mp tail
    have member {other : FsPath} (earlier : other ∈ front) : other ∈ accepted.gas.inputFiles := by
      rw [inputs]
      exact List.mem_append_left _ earlier
    have here : input ∈ accepted.gas.inputFiles := by
      rw [inputs]
      exact List.mem_append_right _ (List.mem_cons_self ..)
    rw [accepted.code_objectProcess tools files understood here] at fails stops
    cases failed : accepted.assembled tools files input with
    | ok content => exact (fails (exitStatus_eq_zero.mpr ⟨content, failed⟩)).elim
    | error status =>
      refine .inr ⟨front, input, rest, status, inputs, ?_, failed, ?_⟩
      · exact fun other earlier => succeeds (member earlier) (fine _ (List.mem_map_of_mem earlier))
      · rw [script, stops, failed, List.map_append, List.map_singleton]
        rfl

private theorem emulates_one {input : FsPath} (only : accepted.gas.inputFiles = [input]) :
    accepted.Emulates tools files
      [accepted.assembler (accepted.shared accepted.attributes) accepted.finalOutput input] := by
  have listed : input ∈ accepted.gas.inputFiles := by
    rw [only]
    exact List.mem_singleton_self _
  have nonempty : accepted.gas.inputFiles ≠ [] := by
    rw [only]
    exact List.cons_ne_nil input []
  have performed := tools.commands_perform
    (accepted.task_assembler understood.documented understood.unquoted accepted.finalOutput_ne_nil
      understood.literal.1 listed (understood.literal.2 input listed)) files
  have product : accepted.made tools files =
      tools.product (accepted.assembleTask accepted.finalOutput input) files := by
    rw [made, spelled, only]
    rfl
  have after : (tools.commands os).after files
      [accepted.assembler (accepted.shared accepted.attributes) accepted.finalOutput input] =
        (tools.perform (accepted.assembleTask accepted.finalOutput input) files).2 :=
    congrArg Prod.snd performed
  constructor
  · rw [accepted.run_script tools files present named nonempty, planned_one only, List.map_singleton,
      Script.run_singleton, FileCommands.exitCode, FileCommands.after_nil, performed, tools.perform_code, product]
    rfl
  · intro content fine
    rw [product] at fine
    rw [after, tools.perform_of_ok fine]
    exact Function.update_self ..
  · intro key other _
    rw [after]
    exact tools.perform_frame _ files other

private theorem emulates_several (several : 2 ≤ accepted.gas.inputFiles.length)
    (apart : accepted.Apart tools files) : ∃ started, accepted.Emulates tools files started := by
  rcases accepted.several_course tools files understood present named several apart with
    ⟨fine, run⟩ | ⟨front, input, rest, status, inputs, fine, failed, run⟩
  · have product := accepted.made_of_assembled tools files understood several apart fine
    have after : (tools.commands os).after files (accepted.objectProcesses ++ [accepted.linker]) =
        (tools.perform accepted.linkTask ((tools.commands os).after files accepted.objectProcesses)).2 := by
      rw [FileCommands.after_append]
      exact congrArg Prod.snd (tools.commands_perform (accepted.task_linkProcess tools understood) _)
    refine ⟨_, run, ?_, ?_⟩
    · intro content linked
      rw [product] at linked
      rw [after, tools.perform_of_ok linked]
      exact Function.update_self ..
    · intro key other objects
      rw [after, tools.perform_frame _ _ other]
      exact accepted.objectProcesses_frame tools files understood (fun _ member => member) (objects several)
  · have product := accepted.made_of_failed tools files inputs fine failed
    refine ⟨(front ++ [input]).map accepted.objectProcess, ?_, ?_, ?_⟩
    · rw [run, product]
      rfl
    · intro content linked
      rw [product] at linked
      cases linked
    · intro key _ objects
      refine accepted.objectProcesses_frame tools files understood ?_ (objects several)
      have shape : accepted.objectProcesses = (front ++ [input]).map accepted.objectProcess ++
          rest.map accepted.objectProcess := by
        rw [objectProcesses, inputs, ← List.map_append, List.append_assoc, List.singleton_append]
      rw [shape]
      exact fun process member => List.mem_append_left _ member

/-- A run does what GAS does. Whatever the tools make of which files, the inputs end up as if they had all been
assembled at the beginning and linked in order: the run returns 0 and the output has the result, or it returns
the code of the first step that fails. -/
theorem run_emulates (nonempty : accepted.gas.inputFiles ≠ [])
    (apart : accepted.Apart tools files) : ∃ started, accepted.Emulates tools files started := by
  rcases inputs : accepted.gas.inputFiles with _ | ⟨input, _ | ⟨second, others⟩⟩
  · exact (nonempty inputs).elim
  · exact ⟨_, accepted.emulates_one tools files understood present named inputs⟩
  · exact accepted.emulates_several tools files understood present named (by simp [inputs]) apart

end

end AcceptedRun

/-! ## Tools that only move text -/

namespace Toolchain

/-- The file that a text stands for, when it begins with `<`. -/
def included : Option PlatformString → Option PlatformString
  | some ('<' :: path) => some path
  | _ => none

/-- An object is its input or the file included in its place, and a link joins its objects. -/
def including : Toolchain PlatformString PlatformString where
  toToolReaders := .textual
  locate := id
  assembled _ input files := (files ((included (files input)).getD input)).elim (.error ⟨1, by decide⟩) .ok
  linked objects := .ok (objects.flatMap fun object => object.getD [])
  residue _ _ := none
  consulted _ input files := { key | key = input ∨ included (files input) = some key }
  consulted_local := by
    intro options input first second agree
    rw [agree input (.inl rfl)]
  assembled_local := by
    intro options input first second agree
    have same := agree input (.inl rfl)
    cases leads : included (first input) with
    | none => rw [← same, leads, Option.getD_none, same]
    | some path => rw [← same, leads, Option.getD_some, agree path (.inr leads)]

end Toolchain

namespace AcceptedRun

open Toolchain

/-- Two inputs, of which the first includes a third file, end up in one output. -/
theorem run_emulates_two :
    let args := [pstr "/ndk/as", pstr "@gas-arch=x86_64-linux-android-as", pstr "-o", pstr "ab.o", pstr "a.s",
      pstr "b.s"]
    let files := fun path => [(pstr "a.s", pstr "<a.inc"), (pstr "a.inc", pstr "A"), (pstr "b.s", pstr "B")].lookup path
    ∃ started, Gas.run .posix (including.environment .posix files .ready) args [] = .ok 0 started ∧
      (including.commands .posix).after files started (pstr "ab.o") = some (pstr "AB") := by
  intro args files
  let accepted : AcceptedRun .posix (including.environment .posix files .ready) args :=
    .ofRequest rfl rfl rfl rfl rfl
  have understood : accepted.Understood including.toToolReaders :=
    ⟨ToolReaders.textual_documented .posix, by decide, by decide⟩
  have apart : accepted.Apart including files := by
    refine .cons (List.forall_mem_singleton.mpr ⟨?_, by decide⟩) (List.pairwise_singleton ..)
    rintro (input | leads)
    · cases input
    · cases leads
  obtain ⟨started, returns, output, -⟩ :=
    run_emulates including files accepted understood rfl (by decide) (by decide) apart
  have product : accepted.made including files = .ok (pstr "AB") := rfl
  rw [product] at returns
  exact ⟨started, returns, output _ product⟩

end AcceptedRun

end GasAdapter
