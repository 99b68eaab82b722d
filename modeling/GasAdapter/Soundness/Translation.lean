import GasAdapter.Soundness.Features
import GasAdapter.Soundness.ObjectPaths
import GasAdapter.Soundness.WindowsCommandLine

/-! # What the tools are asked

The wrapper turns a command line for GAS into command lines for `llvm-mc` and `ld`. Nothing is lost on the
way: read by the tool it is for, every process a run starts is the step of the plan it stands for, with the
options of the request, the right output and the right input or objects. On Windows this is so although
the tool has to split its command line itself; only backslashes in paths may be doubled.
-/

namespace GasAdapter

open McArguments Reading

/-! ## Arguments on their way -/

namespace Platform

variable (os : Platform)

/-- Text without backslashes in front arrives as it stands. -/
theorem received_append {front : PlatformString} (noSlash : '\\' ∉ front) (text : PlatformString) :
    os.received (front ++ text) = front ++ os.received text := by
  cases os with
  | posix => rfl
  | windows => exact ProcessWindows.msvc.readBack_append noSlash text

theorem received_noSlash {text : PlatformString} (noSlash : '\\' ∉ text) : os.received text = text := by
  cases os with
  | posix => rfl
  | windows => exact ProcessWindows.msvc.readBack_noSlash noSlash

theorem received_injective : Function.Injective os.received := by
  cases os with
  | posix => exact Function.injective_id
  | windows => exact ProcessWindows.msvc.readBack_injective

theorem received_ne_nil {text : PlatformString} (full : text ≠ []) : os.received text ≠ [] := by
  have empty : os.received [] = [] := os.received_noSlash List.not_mem_nil
  rw [← empty]
  exact os.received_injective.ne full

theorem head?_received (text : PlatformString) : (os.received text).head? = text.head? := by
  cases os with
  | posix => rfl
  | windows => exact ProcessWindows.msvc.head?_readBack text

theorem isDashed_received (text : PlatformString) : isDashed (os.received text) = isDashed text :=
  congrArg (· == some CommandLine.dash) (os.head?_received text)

/-- Only backslashes are added on the way. -/
theorem mem_received {text : PlatformString} {c : Char} (other : c ≠ '\\') (member : c ∈ os.received text) :
    c ∈ text := by
  cases os with
  | posix => exact member
  | windows => exact ProcessWindows.msvc.mem_readBack other member

variable {os}

/-- A text is literal when it takes its special characters from a literal one. -/
theorem Literal.of_text {first second : PlatformString} (literal : os.Literal second)
    (head : first.head? = some '@' → second.head? = some '@')
    (inside : ∀ c ∈ ['*', '?'], c ∈ first → c ∈ second) : os.Literal first := by
  refine ⟨fun response => literal.1 (head response), fun windows => ?_⟩
  obtain ⟨noStar, noMark⟩ := literal.2 windows
  exact ⟨fun star => noStar (inside '*' (by simp) star), fun mark => noMark (inside '?' (by simp) mark)⟩

theorem Literal.received {text : PlatformString} (literal : os.Literal text) : os.Literal (os.received text) := by
  apply literal.of_text
  · rw [os.head?_received]
    exact id
  · intro c wild member
    refine os.mem_received ?_ member
    rintro rfl
    simp at wild

end Platform

/-- A child finds each argument by itself. -/
theorem Process.received_eq (os : Platform) {process : Process} (full : ∀ a ∈ process.args, a ≠ [])
    (unquoted : os = .windows → '"' ∉ process.executablePath.native) :
    process.received os = process.args.map os.received := by
  cases os with
  | posix => exact (List.map_id process.args).symm
  | windows => exact ProcessWindows.childArguments_eq (unquoted rfl) full

/-! ## Paths that are no options -/

/-- No wildcard and no sign of a response file separates names. -/
private theorem special_plain (os : Platform) {c : Char} (special : c ∈ ['-', '@', '*', '?']) :
    os.pathGrammar.isSeparator c = false ∧ c ≠ os.pathGrammar.preferred ∧ c ≠ '.' ∧ c ≠ 'o' := by
  simp only [List.mem_cons, List.not_mem_nil, or_false] at special
  rcases special with rfl | rfl | rfl | rfl <;> cases os <;> decide

theorem FsPath.literal_makePreferred {os : Platform} {path : FsPath} (literal : os.Literal path.native) :
    os.Literal (path.makePreferred os).native := by
  apply literal.of_text
  · exact (os.pathGrammar.head?_makePreferred path.native (special_plain os (by simp)).1).mp
  · intro c wild member
    have plain := special_plain os (List.mem_cons_of_mem _ (List.mem_cons_of_mem _ wild))
    exact (os.pathGrammar.mem_makePreferred member).resolve_left plain.2.1

namespace LlvmMcRunner

/-- An object begins as its input does. -/
theorem head?_makeOutputFilePath (os : Platform) (input : FsPath) {c : Char} (special : c ∈ ['-', '@', '*', '?']) :
    (makeOutputFilePath os input).native.head? = some c ↔ input.native.head? = some c := by
  obtain ⟨plain, -, period, -⟩ := special_plain os special
  exact (os.pathGrammar.head?_makePreferred _ plain).trans
    (os.pathGrammar.head?_replaceExtension input.native (pstr "o") period)

theorem isDashed_makeOutputFilePath (os : Platform) (input : FsPath) :
    isDashed (makeOutputFilePath os input).native = isDashed input.native := by
  rw [Bool.eq_iff_iff, isDashed, isDashed, beq_iff_eq, beq_iff_eq]
  exact head?_makeOutputFilePath os input (List.mem_cons_self ..)

/-- Only the extension and separators of an object are not in its input. -/
theorem mem_makeOutputFilePath {os : Platform} {input : FsPath} {c : Char}
    (member : c ∈ (makeOutputFilePath os input).native) :
    c ∈ input.native ∨ c = os.pathGrammar.preferred ∨ c ∈ pstr ".o" := by
  rcases os.pathGrammar.mem_makePreferred member with separator | kept
  · exact .inr (.inl separator)
  · exact (os.pathGrammar.mem_replaceExtension kept).imp_right .inr

theorem literal_makeOutputFilePath {os : Platform} {input : FsPath} (literal : os.Literal input.native) :
    os.Literal (makeOutputFilePath os input).native := by
  apply literal.of_text
  · exact (head?_makeOutputFilePath os input (by simp)).mp
  · intro c wild member
    obtain ⟨-, separator, period, letter⟩ :=
      special_plain os (List.mem_cons_of_mem _ (List.mem_cons_of_mem _ wild))
    rcases mem_makeOutputFilePath member with inside | same | extension
    · exact inside
    · exact (separator same).elim
    · rcases List.mem_pair.mp extension with same | same
      · exact (period same).elim
      · exact (letter same).elim

end LlvmMcRunner

/-! ## What every run is told -/

/-- The characters that a tool or a command line may take for more than text. -/
def specialCharacters : List Char := ['\\', '@', '*', '?']

theorem Operation.attributes_plain (value : PlatformString) :
    ∀ attr ∈ (Operation.mapOption (pstr "mfpu") value).attributes, ∀ c ∈ specialCharacters, c ∉ attr := by
  have table : ∀ entry ∈ LlvmMcRunner.fpuTypeMap, ∀ attr ∈ entry.2,
      (specialCharacters.all fun c => !attr.contains c) = true := by decide
  rw [Operation.attributes, if_pos BEq.rfl]
  cases found : LlvmMcRunner.fpuTypeMap.lookup value with
  | none =>
    intro attr member
    cases member
  | some entry => simpa using table _ (LlvmMcRunner.mem_fpuTypeMap found)

namespace Settings

/-- No option in front of the output is called `-o`. -/
theorem frontOptions_keys (settings : Settings) :
    ∀ option ∈ settings.frontOptions, (option.1 != pstr "-o") = true := by
  obtain ⟨kind, debug, includeDirs, attributes, mcpu, output, input⟩ := settings
  apply List.all_eq_true.mp
  cases debug <;> cases attributes <;> rfl

/-- Every option is given once. -/
theorem frontOptions_once (settings : Settings) (output : PlatformString) :
    ((settings.frontOptions ++ [(pstr "-o", output)]).map Prod.fst).Nodup := by
  obtain ⟨kind, debug, includeDirs, attributes, mcpu, output', input⟩ := settings
  have names : [pstr "--arch", pstr "--triple", pstr "--assemble", pstr "-g", pstr "--filetype", pstr "--mattr",
      pstr "-o"].Nodup := by decide
  refine List.Nodup.sublist ?_ names
  cases debug <;> cases attributes <;> simp [frontOptions, options]

theorem frontOptions_known {settings : Settings} (full : ∀ attr ∈ settings.attributes, attr ≠ []) :
    ∀ option ∈ settings.frontOptions, Known option := by
  obtain ⟨kind, debug, includeDirs, attributes, mcpu, output, input⟩ := settings
  simp only [frontOptions, options, List.forall_mem_append]
  refine ⟨⟨⟨⟨?_, ?_⟩, ?_⟩, ?_⟩, by simp⟩
  · cases kind <;> decide
  · cases debug with
    | false => exact List.forall_mem_nil _
    | true => exact List.forall_mem_singleton.mpr (.inl ⟨by simp, rfl⟩)
  · decide
  · cases attributes with
    | nil => exact List.forall_mem_nil _
    | cons first rest =>
      exact List.forall_mem_singleton.mpr
        (.inr ⟨by simp, valueList_ne_nil (List.cons_ne_nil first rest) full⟩)

theorem sharedArguments_plain {settings : Settings} (full : ∀ attr ∈ settings.attributes, attr ≠ [])
    (plain : ∀ attr ∈ settings.attributes, ∀ c ∈ specialCharacters, c ∉ attr) :
    ∀ arg ∈ settings.sharedArguments, ∀ c ∈ specialCharacters, c ∉ arg := by
  intro arg member c special
  have joined : c ∉ Process.valueList settings.attributes := by
    rw [Process.valueList_eq full]
    intro inside
    rcases Pathname.mem_intercalate inside with rfl | ⟨attr, listed, inside⟩
    · simp [specialCharacters] at special
    · exact plain attr listed c special inside
  have fixed (text : PlatformString) (without : (specialCharacters.all fun c => !text.contains c) = true) :
      c ∉ text := by simpa using List.all_eq_true.mp without c special
  simp only [sharedArguments, List.mem_append, List.mem_cons, List.not_mem_nil, or_false] at member
  rcases member with (((rfl | rfl | rfl) | debug) | rfl) | mattr
  · exact fixed _ (by cases settings.kind <;> decide)
  · exact fixed _ (by cases settings.kind <;> decide)
  · exact fixed _ (by decide)
  · split at debug
    · rw [List.mem_singleton.mp debug]
      exact fixed _ (by decide)
    · cases debug
  · exact fixed _ (by decide)
  · split at mattr
    · cases mattr
    · rw [List.mem_singleton.mp mattr]
      exact List.not_mem_append (fixed _ (by decide)) joined

end Settings

/-- Text without special characters is literal. -/
theorem Platform.literal_of_plain (os : Platform) {text : PlatformString}
    (plain : ∀ c ∈ specialCharacters, c ∉ text) : os.Literal text := by
  refine ⟨?_, fun _ => ⟨plain '*' (by decide), plain '?' (by decide)⟩⟩
  intro response
  exact plain '@' (by decide) (List.mem_of_mem_head? response)

/-! ## Reading the arguments -/

namespace ToolReaders

variable {readers : ToolReaders} {os : Platform}

/-- `llvm-mc` reads the shared arguments as options; the two others are the output and the input. -/
theorem Documented.llvmMc_eq (documented : readers.Documented os) {settings : Settings}
    (full : ∀ attr ∈ settings.attributes, attr ≠ []) {output input : PlatformString} (named : output ≠ [])
    (given : input ≠ [] ∧ isDashed input = false)
    (literal : ∀ arg ∈ settings.sharedArguments ++ [pstr "-o=" ++ output, input], os.Literal arg) :
    readers.llvmMc (settings.sharedArguments ++ [pstr "-o=" ++ output, input]) =
      some (.assemble settings.frontOptions output input) := by
  have spelled : mcSyntax.spell (pstr "-o", output) = pstr "-o=" ++ output := by
    obtain ⟨c, rest, rfl⟩ := List.exists_cons_of_ne_nil named
    rfl
  have written : settings.sharedArguments ++ [pstr "-o=" ++ output, input] =
      (settings.frontOptions ++ [(pstr "-o", output)]).map mcSyntax.spell ++ [input] := by
    rw [List.map_append, ← Settings.sharedArguments_eq full, List.map_singleton, spelled, List.append_assoc]
    rfl
  have kept : (settings.frontOptions ++ [(pstr "-o", output)]).filter (fun option => option.1 != pstr "-o") =
      settings.frontOptions := by
    rw [List.filter_append, List.filter_eq_self.mpr settings.frontOptions_keys]
    exact List.append_nil _
  have known : ∀ option ∈ settings.frontOptions ++ [(pstr "-o", output)], Known option :=
    List.forall_mem_append.mpr ⟨Settings.frontOptions_known full,
      List.forall_mem_singleton.mpr (.inr ⟨by simp, named⟩)⟩
  have read := documented.assembles (settings.frontOptions ++ [(pstr "-o", output)]) output input known
    (settings.frontOptions_once output) (List.mem_append_right _ (List.mem_singleton_self _)) given
  rw [← written, kept] at read
  exact read literal

/-- `ld` reads what follows `--relocatable` as objects. -/
theorem Documented.ld_eq (documented : readers.Documented os) (output : PlatformString)
    {objects : List PlatformString} (given : ∀ object ∈ objects, object ≠ [] ∧ isDashed object = false)
    (literal : ∀ arg ∈ [pstr "-o", output, pstr "--relocatable"] ++ objects, os.Literal arg) :
    readers.ld ([pstr "-o", output, pstr "--relocatable"] ++ objects) = some (.link output objects) := by
  have none : (objects.map LdWord.object).filterMap LdWord.outputPath = [] := by
    simp [List.filterMap_map, Function.comp_def, LdWord.outputPath]
  have all : (objects.map LdWord.object).filterMap LdWord.objectPath = objects := by
    simp [List.filterMap_map, Function.comp_def, LdWord.objectPath]
  have written : [pstr "-o", output, pstr "--relocatable"] ++ objects =
      (LdWord.output output :: .relocatable :: objects.map .object).flatMap LdWord.spell := by
    have each : (objects.map LdWord.object).flatMap LdWord.spell = objects := by
      rw [List.flatMap_map]
      exact List.flatMap_singleton' objects
    rw [List.flatMap_cons, List.flatMap_cons, each]
    rfl
  have read := documented.links (.output output :: .relocatable :: objects.map .object) output
    (congrArg (output :: ·) none) (by simp)
  simp only [List.filterMap_cons, LdWord.objectPath, all, ← written] at read
  exact read given literal

end ToolReaders

/-! ## Scripts -/

namespace Plan

/-- Every action that starts a process starts the one that is planned there. -/
theorem assembly_planned (os : Platform) (env : Environment) (programDir : FsPath) (ldName : PlatformString)
    (settings : Settings) (output : PlatformString) {inputs : List FsPath} (given : inputs ≠ []) :
    List.Forall₂ (fun action process => ∀ other, action = .start other → other = process)
      (assembly os env programDir ldName settings output inputs)
      (processes os programDir ldName settings output inputs) := by
  have starts (object : PlatformString) (input : FsPath) (other : Process)
      (same : inputAction os env (programDir.append os (Constants.llvmMcName os)) settings object input =
        .start other) :
      other = llvmMcProcess os (programDir.append os (Constants.llvmMcName os)) settings object input := by
    obtain ⟨fine, present⟩ := inputAction_start same
    simp only [inputAction, fine, present] at same
    cases same
    rfl
  rcases inputs with _ | ⟨input, _ | ⟨second, others⟩⟩
  · exact (given rfl).elim
  · exact .cons (starts output input) .nil
  · apply List.rel_append
    · rw [List.forall₂_map_left_iff, List.forall₂_map_right_iff, List.forall₂_same]
      exact fun input _ => starts (objectPath os input).native input
    · exact .cons (fun other same => (ScriptAction.start.inj same).symm) .nil

end Plan

/-! ## Accepted runs -/

namespace AcceptedRun

variable {os : Platform} {env : Environment} {args : List PlatformString}

/-- The attributes the `-mfpu` values stand for. -/
def attributes (accepted : AcceptedRun os env args) : List PlatformString :=
  accepted.request.fpus.flatMap fun value => (Operation.mapOption (pstr "mfpu") value).attributes

theorem agrees_attributes (accepted : AcceptedRun os env args) : accepted.Agrees accepted.attributes := by
  obtain ⟨attributes, agrees⟩ := accepted.agrees
  rw [AcceptedRun.attributes, ← Request.attributes_eq agrees.mapped]
  exact agrees

/-- What every `llvm-mc` of the run is told besides its output and input. -/
def settings (accepted : AcceptedRun os env args) : Settings :=
  accepted.request.settings accepted.target.runner accepted.attributes

def assembleTask (accepted : AcceptedRun os env args) (output : PlatformString) (input : FsPath) : Task :=
  .assemble accepted.settings.frontOptions (os.received output) (os.received (input.makePreferred os).native)

def linkTask (accepted : AcceptedRun os env args) : Task :=
  .link (os.received accepted.finalOutput) (accepted.objects.map fun object => os.received object.native)

/-- What the run asks of the tools when every child succeeds. -/
def tasks (accepted : AcceptedRun os env args) : List Task :=
  match accepted.gas.inputFiles with
  | [] => []
  | [input] => [accepted.assembleTask accepted.finalOutput input]
  | inputs => (inputs.map fun input =>
      accepted.assembleTask (LlvmMcRunner.makeOutputFilePath os input).native input) ++ [accepted.linkTask]

/-- The `llvm-mc` process for one of several inputs. -/
def objectProcess (accepted : AcceptedRun os env args) (input : FsPath) : Process :=
  accepted.assembler (accepted.shared accepted.attributes) (LlvmMcRunner.makeOutputFilePath os input).native input

def objectProcesses (accepted : AcceptedRun os env args) : List Process :=
  accepted.gas.inputFiles.map accepted.objectProcess

/-- All processes of the run when every child succeeds. -/
def planned (accepted : AcceptedRun os env args) : List Process :=
  accepted.sequence (accepted.shared accepted.attributes)

theorem planned_one {accepted : AcceptedRun os env args} {input : FsPath}
    (only : accepted.gas.inputFiles = [input]) :
    accepted.planned = [accepted.assembler (accepted.shared accepted.attributes) accepted.finalOutput input] :=
  sequence_one only _

theorem planned_several {accepted : AcceptedRun os env args} (several : 2 ≤ accepted.gas.inputFiles.length) :
    accepted.planned = accepted.objectProcesses ++ [accepted.linker] :=
  sequence_several several _

/-- However a run ends, it has started the first processes of its plan. -/
theorem started_planned (accepted : AcceptedRun os env args) :
    Gas.started os env args <+: accepted.planned := by
  have agrees := accepted.agrees_attributes
  rw [planned, ← accepted.processes_eq agrees, Gas.started, accepted.run_eq agrees]
  obtain ⟨commands, final, front⟩ := Script.run_started env.exitCode (Plan.assembly os env
    accepted.programDir accepted.target.ldName accepted.settings accepted.request.output
    accepted.request.inputs) []
  rw [settings] at final front
  rw [final, List.nil_append]
  cases inputs : accepted.request.inputs with
  | nil =>
    rw [inputs] at front
    cases commands with
    | nil => exact List.nil_prefix
    | cons command rest => cases (List.cons_prefix_cons.mp front).1
  | cons input rest =>
    rw [processes, inputs]
    rw [inputs] at front
    exact Script.prefix_of_forall₂ (Plan.assembly_planned os env _ _ _ _ (List.cons_ne_nil input rest)) front

/-- No path the wrapper is told on Windows has a quote. -/
theorem executable_unquoted (accepted : AcceptedRun os env args) (unquoted : '"' ∉ accepted.programDir.native)
    {name : PlatformString} (member : name ∈ [Constants.llvmMcName os, accepted.target.ldName]) :
    '"' ∉ ((accepted.programDir.append os name).lexicallyNormal os).native := by
  have preferred : '"' ≠ os.pathGrammar.preferred := by cases os <;> decide
  have plain : '"' ∉ name := by
    have names : ∀ ldName ∈ [Gas.arm64ArchPrefix, Gas.arm32ArchPrefix, Gas.x86ArchPrefix, Gas.x64ArchPrefix].map
        (· ++ Gas.genericLdName os), ∀ name ∈ [Constants.llvmMcName os, ldName], '"' ∉ name := by
      cases os <;> decide
    exact names _ (Gas.selectTarget_ldName accepted.selected) name member
  intro quote
  rcases os.pathGrammar.mem_lexicallyNormal quote with inside | same | period
  · rcases os.pathGrammar.mem_append inside with directory | name | separator
    · exact unquoted directory
    · exact plain name
    · exact preferred separator
  · exact preferred same
  · cases period

theorem settings_plain (accepted : AcceptedRun os env args) :
    ∀ attr ∈ accepted.settings.attributes, attr ≠ [] ∧ ∀ c ∈ specialCharacters, c ∉ attr := by
  intro attr member
  rcases List.mem_append.mp member with base | added
  · have table : ∀ kind, ∀ attr ∈ Settings.baseAttributes kind,
        attr ≠ [] ∧ (specialCharacters.all fun c => !attr.contains c) = true := by
      intro kind
      cases kind <;> decide
    obtain ⟨full, plain⟩ := table _ attr base
    exact ⟨full, by simpa using plain⟩
  · obtain ⟨value, -, entry⟩ := List.mem_flatMap.mp added
    exact ⟨Operation.attributes_full _ attr entry, Operation.attributes_plain value attr entry⟩

/-- The paths of the command line are taken as they stand by every tool. -/
def Literal (accepted : AcceptedRun os env args) : Prop :=
  os.Literal accepted.finalOutput ∧ ∀ input ∈ accepted.gas.inputFiles, os.Literal input.native

instance (accepted : AcceptedRun os env args) : Decidable accepted.Literal :=
  inferInstanceAs (Decidable (_ ∧ _))

section

variable {readers : ToolReaders} (documented : readers.Documented os) (accepted : AcceptedRun os env args)
  (unquoted : os = .windows → '"' ∉ accepted.programDir.native)

include unquoted

/-- What `llvm-mc` finds in its argument vector. -/
theorem received_assembler (output : PlatformString) {input : FsPath} (listed : input ∈ accepted.gas.inputFiles) :
    (accepted.assembler (accepted.shared accepted.attributes) output input).received os =
      accepted.settings.sharedArguments ++
        [pstr "-o=" ++ os.received output, os.received (input.makePreferred os).native] := by
  have attributes := accepted.settings_plain
  have plain := Settings.sharedArguments_plain (fun attr member => (attributes attr member).1)
    (fun attr member => (attributes attr member).2)
  have outputArgument : os.received (pstr "-o=" ++ output) = pstr "-o=" ++ os.received output :=
    os.received_append (by decide) output
  have shared : accepted.settings.sharedArguments.map os.received = accepted.settings.sharedArguments := by
    conv_rhs => rw [← List.map_id accepted.settings.sharedArguments]
    exact List.map_congr_left fun arg member => os.received_noSlash (plain arg member '\\' (by decide))
  rw [Process.received_eq os (accepted.assembler_full accepted.attributes output listed) fun windows =>
    accepted.executable_unquoted (unquoted windows) (List.mem_cons_self ..)]
  change (accepted.settings.sharedArguments ++ _).map os.received = _
  rw [List.map_append, shared, List.map_cons, outputArgument]
  rfl

/-- What `ld` finds in its argument vector. -/
theorem received_linker : accepted.linker.received os =
    [pstr "-o", os.received accepted.finalOutput, pstr "--relocatable"] ++
      accepted.objects.map fun object => os.received object.native := by
  rw [Process.received_eq os accepted.linker_full fun windows =>
    accepted.executable_unquoted (unquoted windows) (by simp)]
  have bare : os.received (pstr "-o") = pstr "-o" := os.received_noSlash (by decide)
  have relocatable : os.received (pstr "--relocatable") = pstr "--relocatable" := os.received_noSlash (by decide)
  rw [linker, objects]
  simp only [List.map_append, List.map_cons, List.map_nil, List.map_map, bare, relocatable]
  rfl

include documented

theorem task_assembler {output : PlatformString} (named : output ≠ []) (literal : os.Literal output)
    {input : FsPath} (listed : input ∈ accepted.gas.inputFiles) (literalInput : os.Literal input.native) :
    readers.task os (accepted.assembler (accepted.shared accepted.attributes) output input) =
      some (accepted.assembleTask output input) := by
  obtain ⟨full, plain⟩ := accepted.inputFiles_wellRead input listed
  have attributes := accepted.settings_plain
  have name : (Constants.llvmMcName os).isSuffixOf
      (accepted.assembler (accepted.shared accepted.attributes) output input).executablePath.native = true :=
    List.isSuffixOf_iff_suffix.mpr
      (Gas.executable_suffix accepted.selected accepted.programDir (List.mem_cons_self ..))
  rw [ToolReaders.task, if_pos name, accepted.received_assembler unquoted output listed]
  apply documented.llvmMc_eq
  · exact fun attr member => (attributes attr member).1
  · exact os.received_ne_nil named
  · constructor
    · apply os.received_ne_nil
      simpa [FsPath.makePreferred, Pathname.Grammar.makePreferred] using full
    · rw [os.isDashed_received, isDashed_makePreferred]
      exact plain
  · refine List.forall_mem_append.mpr ⟨?_, List.forall_mem_cons.mpr ⟨?_, List.forall_mem_singleton.mpr ?_⟩⟩
    · exact fun arg member => os.literal_of_plain (Settings.sharedArguments_plain
        (fun attr member => (attributes attr member).1) (fun attr member => (attributes attr member).2) arg member)
    · refine literal.received.of_text (fun response => ?_) fun c wild member => ?_
      · cases response
      · rcases List.mem_append.mp member with name | inside
        · simp only [List.mem_cons, List.not_mem_nil, or_false] at wild
          rcases wild with rfl | rfl <;> exact absurd name (by decide)
        · exact inside
    · exact (FsPath.literal_makePreferred literalInput).received

theorem task_linker (literal : accepted.Literal) : readers.task os accepted.linker = some accepted.linkTask := by
  have name : ¬(Constants.llvmMcName os).isSuffixOf accepted.linker.executablePath.native = true := by
    rw [List.isSuffixOf_iff_suffix]
    exact Gas.ld_not_llvmMc accepted.selected accepted.programDir
  have each (object : PlatformString)
      (member : object ∈ accepted.objects.map fun object => os.received object.native) :
      ∃ input ∈ accepted.gas.inputFiles, os.received (LlvmMcRunner.makeOutputFilePath os input).native = object := by
    obtain ⟨path, made, rfl⟩ := List.mem_map.mp member
    obtain ⟨input, listed, rfl⟩ := List.mem_map.mp made
    exact ⟨input, listed, rfl⟩
  rw [ToolReaders.task, if_neg name, accepted.received_linker unquoted]
  apply documented.ld_eq
  · intro object member
    obtain ⟨input, listed, rfl⟩ := each object member
    refine ⟨os.received_ne_nil (LlvmMcRunner.makeOutputFilePath_ne_nil os input), ?_⟩
    rw [os.isDashed_received, LlvmMcRunner.isDashed_makeOutputFilePath]
    exact (accepted.inputFiles_wellRead input listed).2
  · refine List.forall_mem_append.mpr ⟨?_, ?_⟩
    · simp only [List.forall_mem_cons, List.not_mem_nil, IsEmpty.forall_iff, implies_true, and_true]
      exact ⟨by cases os <;> decide, literal.1.received, by cases os <;> decide⟩
    · intro object member
      obtain ⟨input, listed, rfl⟩ := each object member
      exact (LlvmMcRunner.literal_makeOutputFilePath (literal.2 input listed)).received

/-- The planned processes are read by their tools as the tasks of the run. -/
theorem planned_tasks (literal : accepted.Literal) :
    accepted.planned.map (readers.task os) = accepted.tasks.map some := by
  have assembled {output : PlatformString} (named : output ≠ []) (plain : os.Literal output) {input : FsPath}
      (listed : input ∈ accepted.gas.inputFiles) :=
    accepted.task_assembler documented unquoted named plain listed (literal.2 input listed)
  have linked := accepted.task_linker documented unquoted literal
  have object (input : FsPath) (listed : input ∈ accepted.gas.inputFiles) :=
    LlvmMcRunner.literal_makeOutputFilePath (literal.2 input listed)
  unfold planned sequence tasks assemblers
  generalize accepted.gas.inputFiles = inputs at assembled object ⊢
  rcases inputs with _ | ⟨input, _ | ⟨second, others⟩⟩
  · rfl
  · rw [List.map_singleton, assembled accepted.finalOutput_ne_nil literal.1 (List.mem_singleton_self _)]
    rfl
  · rw [List.map_append, List.map_append, List.map_map, List.map_map, List.map_singleton, List.map_singleton,
      linked]
    congr 1
    apply List.map_congr_left
    exact fun input listed =>
      assembled (LlvmMcRunner.makeOutputFilePath_ne_nil os input) (object input listed) listed

/-- However a run ends, its processes are read by their tools as the first tasks of its plan. -/
theorem started_tasks (literal : accepted.Literal) :
    (Gas.started os env args).map (readers.task os) <+: accepted.tasks.map some := by
  rw [← accepted.planned_tasks documented unquoted literal]
  exact accepted.started_planned.map (readers.task os)

end

end AcceptedRun

/-! ## Readers that keep to the text -/

namespace ToolReaders

/-- The state of the reader of `ld` is whether the output comes next, whatever it looks like. -/
def ldReader : Transducer Bool PlatformString LdWord where
  step
    | true, arg => (false, [.output arg])
    | false, arg =>
        if arg == pstr "-o" then (true, [])
        else if arg == pstr "--relocatable" then (false, [.relocatable])
        else if isDashed arg then (false, [])
        else (false, [.object arg])

/-- Readers that look at no file, and so refuse the names of response files. -/
def textual : ToolReaders where
  llvmMc args := do
    let input ← args.getLast?
    let (pending, options) := mcSyntax.reader.run none args.dropLast
    let output ← options.lookup (pstr "-o")
    if args.any (·.head? == some '@') || pending.isSome then none
    else some (.assemble (options.filter fun option => option.1 != pstr "-o") output input)
  ld args := do
    let (pending, words) := ldReader.run false args
    let output ← (words.filterMap LdWord.outputPath).getLast?
    if args.any (·.head? == some '@') || pending || !words.contains .relocatable then none
    else some (.link output (words.filterMap LdWord.objectPath))

theorem complete_of_known {option : PlatformString × PlatformString} (known : Known option) :
    mcSyntax.Complete option := by
  obtain ⟨name, value⟩ := option
  rcases known with ⟨flag, none⟩ | ⟨valued, full⟩
  · have table : ∀ name ∈ [pstr "--assemble", pstr "-g"], '=' ∉ name ∧ mcSyntax.isFlag name = true := by decide
    exact ⟨(table name flag).1, fun _ => (table name flag).2⟩
  · have table : ∀ name ∈ [pstr "--arch", pstr "--triple", pstr "--filetype", pstr "--mattr", pstr "-o"],
        '=' ∉ name := by decide
    exact ⟨table name valued, fun none => (full none).elim⟩

theorem run_ldReader {words : List LdWord} (plain : ∀ object ∈ words.filterMap LdWord.objectPath,
    isDashed object = false) : ldReader.run false (words.flatMap LdWord.spell) = (false, words) := by
  have each := ldReader.run_flatMap LdWord.spell id false words
  rw [List.map_id] at each
  apply each
  intro word member
  cases word with
  | output path => rfl
  | relocatable => rfl
  | object path =>
    have undashed := plain path (List.mem_filterMap.mpr ⟨_, member, rfl⟩)
    have notOutput : path ≠ pstr "-o" := by
      rintro rfl
      cases undashed
    have notRelocatable : path ≠ pstr "--relocatable" := by
      rintro rfl
      cases undashed
    rw [LdWord.spell, Transducer.run_singleton]
    simp [ldReader, notOutput, notRelocatable, undashed]

theorem textual_documented (os : Platform) : textual.Documented os := by
  have noResponse {args : List PlatformString} (literal : ∀ arg ∈ args, os.Literal arg) :
      args.any (·.head? == some '@') = false := by
    rw [List.any_eq_false]
    exact fun arg member => by simpa using (literal arg member).1
  constructor
  · intro options output input known once makes given literal
    have read := mcSyntax.run_map_spell fun option member => complete_of_known (known option member)
    have found : options.lookup (pstr "-o") = some output := by
      obtain ⟨front, back, rfl⟩ := List.append_of_mem makes
      rw [List.map_append, List.nodup_append] at once
      refine List.lookup_eq_some_iff.mpr ⟨front, back, rfl, ?_⟩
      intro option member
      have other : option.1 ≠ pstr "-o" :=
        once.2.2 option.1 (List.mem_map_of_mem member) (pstr "-o") (List.mem_cons_self ..)
      simpa using other.symm
    simp only [textual, List.getLast?_concat, List.dropLast_concat, Option.bind_eq_bind, Option.bind_some, read,
      found, noResponse literal]
    rfl
  · intro words output makes relocates given literal
    have read := run_ldReader fun object member => (given object member).2
    have contains : words.contains .relocatable = true := by simpa using relocates
    simp only [textual, read, makes, List.getLast?_singleton, Option.bind_eq_bind, Option.bind_some,
      noResponse literal, contains]
    rfl

end ToolReaders

namespace AcceptedRun

/-- On Windows the backslash of an input is doubled on the way, and the last task is still the link. -/
theorem started_tasks_windows :
    let args := [pstr "as", pstr "@gas-arch=x86_64-linux-android-as", pstr "-g", pstr "src\\a.s", pstr "b.s"]
    ∃ tasks : List Task,
      (Gas.started .windows .ready args).map (ToolReaders.textual.task .windows) <+: tasks.map some ∧
        tasks.getLast? = some (.link (pstr "a.out") [pstr "src\\\\a.o", pstr "b.o"]) := by
  intro args
  let accepted : AcceptedRun .windows .ready args := .ofRequest rfl rfl rfl rfl rfl
  exact ⟨accepted.tasks,
    started_tasks (ToolReaders.textual_documented .windows) accepted (by decide) (by decide), rfl⟩

end AcceptedRun

end GasAdapter
