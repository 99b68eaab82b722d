import GasAdapter.Proofs.Operations
import GasAdapter.Spec.McArguments

/-! # Reading the arguments of a run

The arguments of a run are the options of its settings, one argument each, and the input. They are read
back to these options unless the output is the empty path, whose option is written as a bare name. The
attributes are joined by commas, so what is read of them is the features of each, in order.
-/

namespace GasAdapter

open McArguments

/-- Attributes that are not empty are joined by commas. -/
theorem Process.valueList_eq {values : List PlatformString} (full : ∀ value ∈ values, value ≠ []) :
    Process.valueList values = [','].intercalate values := by
  have joined (start : PlatformString) (rest : List PlatformString) (nonempty : start ≠ []) :
      rest.foldl (fun valueList value =>
        (if valueList.isEmpty then valueList else valueList ++ pstr ",") ++ value) start =
        [','].intercalate (start :: rest) := by
    induction rest generalizing start with
    | nil => simp
    | cons value rest ih =>
      have closed : start.isEmpty = false := by simpa using nonempty
      rw [List.foldl_cons, closed, ih _ (by simp [pstr]), List.intercalate_cons_cons]
      cases rest <;> simp [List.intercalate_cons_cons, pstr]
  cases values with
  | nil => rfl
  | cons value rest =>
    rw [Process.valueList, List.foldl_cons]
    exact joined value rest (full value (List.mem_cons_self ..))

/-- The features of joined attributes are those of each, in order. -/
theorem McArguments.features_valueList {values : List PlatformString} (given : values ≠ [])
    (full : ∀ value ∈ values, value ≠ []) :
    features (Process.valueList values) = values.flatMap features := by
  rw [features, Process.valueList_eq full, List.splitOn_intercalate_flatMap ',' given]
  rfl

namespace Settings

/-- What a run is told, as options. -/
def options (settings : Settings) : List (PlatformString × PlatformString) :=
  [(pstr "--arch", (LlvmMcRunner.architectureNames settings.kind).1),
    (pstr "--triple", triple settings.kind), (pstr "--assemble", [])] ++
  (if settings.debug then [(pstr "-g", [])] else []) ++
  [(pstr "--filetype", pstr "obj")] ++
  (if settings.attributes.isEmpty then [] else [(pstr "--mattr", Process.valueList settings.attributes)]) ++
  settings.output.toList.map fun output => (pstr "-o", output)

theorem valueList_ne_nil {values : List PlatformString} (given : values ≠ [])
    (full : ∀ value ∈ values, value ≠ []) : Process.valueList values ≠ [] := by
  obtain ⟨value, rest, rfl⟩ := List.exists_cons_of_ne_nil given
  have nonempty := full value (List.mem_cons_self ..)
  rw [Process.valueList_eq full]
  cases rest <;> simp [List.intercalate_cons_cons, nonempty]

/-- The options before the output, which always have a value or are flags. -/
def frontOptions (settings : Settings) : List (PlatformString × PlatformString) :=
  { settings with output := none }.options

theorem options_eq (settings : Settings) :
    settings.options =
      settings.frontOptions ++ settings.output.toList.map fun output => (pstr "-o", output) := by
  simp [frontOptions, options]

/-- The shared arguments are the options before the output. -/
theorem sharedArguments_eq {settings : Settings} (full : ∀ attr ∈ settings.attributes, attr ≠ []) :
    settings.sharedArguments = settings.frontOptions.map mcSyntax.spell := by
  obtain ⟨kind, debug, includeDirs, attributes, mcpu, output, input⟩ := settings
  have target : [pstr "--arch=" ++ (LlvmMcRunner.architectureNames kind).1, pstr "--triple=" ++ triple kind,
      pstr "--assemble"] = [(pstr "--arch", (LlvmMcRunner.architectureNames kind).1),
        (pstr "--triple", triple kind), (pstr "--assemble", [])].map mcSyntax.spell := by
    cases kind <;> rfl
  have debugging : (if debug then [pstr "-g"] else []) =
      (if debug then [(pstr "-g", ([] : PlatformString))] else []).map mcSyntax.spell := by
    cases debug <;> rfl
  have mattr : (if attributes.isEmpty then [] else [pstr "--mattr=" ++ Process.valueList attributes]) =
      (if attributes.isEmpty then [] else [(pstr "--mattr", Process.valueList attributes)]).map
        mcSyntax.spell := by
    cases attributes with
    | nil => rfl
    | cons first rest =>
      obtain ⟨c, joined, text⟩ :=
        List.exists_cons_of_ne_nil (valueList_ne_nil (List.cons_ne_nil first rest) full)
      rw [text]
      rfl
  simp only [sharedArguments, frontOptions, options, target, debugging, mattr, List.map_append]
  exact (List.append_nil _).symm

theorem outputArguments_eq (settings : Settings) :
    settings.outputArguments =
      (settings.output.toList.map fun output => (pstr "-o", output)).map mcSyntax.spell := by
  unfold outputArguments
  rcases settings.output with _ | _ | ⟨c, output⟩ <;> rfl

/-- The arguments of a run are its options, one argument each, and the input. -/
theorem llvmMcArguments_eq (os : Platform) (settings : Settings)
    (full : ∀ attr ∈ settings.attributes, attr ≠ []) :
    settings.llvmMcArguments os =
      settings.options.map mcSyntax.spell ++ [(settings.input.makePreferred os).native] := by
  rw [llvmMcArguments, sharedArguments_eq full, outputArguments_eq, ← List.map_append, ← options_eq]

theorem frontOptions_complete {settings : Settings} (full : ∀ attr ∈ settings.attributes, attr ≠ []) :
    ∀ option ∈ settings.frontOptions, mcSyntax.Complete option := by
  obtain ⟨kind, debug, includeDirs, attributes, mcpu, output, input⟩ := settings
  simp only [frontOptions, options, List.forall_mem_append]
  refine ⟨⟨⟨⟨?_, ?_⟩, ?_⟩, ?_⟩, by simp⟩
  · cases kind <;> decide
  · cases debug with
    | false => simp
    | true => exact List.forall_mem_singleton.mpr (by decide)
  · decide
  · cases attributes with
    | nil => simp
    | cons first rest =>
      have plain : mcSyntax.equals ∉ pstr "--mattr" := by decide
      exact List.forall_mem_singleton.mpr
        ⟨plain, fun none => (valueList_ne_nil (List.cons_ne_nil first rest) full none).elim⟩

/-- The options are read back from the arguments, unless the output is the empty path. -/
theorem run_options {settings : Settings} (full : ∀ attr ∈ settings.attributes, attr ≠ []) :
    mcSyntax.reader.run none (settings.options.map mcSyntax.spell) =
      if settings.output = some [] then (some (pstr "-o"), settings.frontOptions)
      else (none, settings.options) := by
  have front := frontOptions_complete full
  have plain : mcSyntax.equals ∉ pstr "-o" := by decide
  rw [options_eq]
  split
  · next empty =>
    have bare : mcSyntax.reader.run none (((some ([] : PlatformString)).toList.map fun output =>
        (pstr "-o", output)).map mcSyntax.spell) = (some (pstr "-o"), []) := mcSyntax.run_bare plain rfl
    rw [empty, List.map_append, Transducer.run_append, mcSyntax.run_map_spell front]
    simp only [bare, List.append_nil]
  · next named =>
    apply mcSyntax.run_map_spell
    rw [List.forall_mem_append]
    refine ⟨front, ?_⟩
    cases output : settings.output with
    | none => simp
    | some text =>
      refine List.forall_mem_singleton.mpr ⟨plain, fun none => ?_⟩
      rw [output, show text = [] from none] at named
      exact (named rfl).elim

/-- What the options say about each key: include directories are never among them. -/
theorem valuesRead_options {settings : Settings} (full : ∀ attr ∈ settings.attributes, attr ≠ [])
    (mcpu : settings.mcpu = none) (key : LlvmMcArgument) :
    valuesRead settings.options key =
      if key = .includeDir then [] else content settings.runner key := by
  obtain ⟨kind, debug, includeDirs, attributes, _, output, input⟩ := settings
  obtain rfl := mcpu
  by_cases isMattr : key = .mattr
  · subst isMattr
    cases attributes with
    | nil => cases debug <;> cases output <;> rfl
    | cons first rest =>
      -- the features of the joined text are those of the stored attributes
      have joined := features_valueList (List.cons_ne_nil first rest) full
      cases debug <;> cases output <;> exact (List.append_nil _).trans joined
  · cases key
    case mattr => exact (isMattr rfl).elim
    all_goals cases debug <;> cases attributes <;> cases output <;> rfl

theorem unkeyed_options (settings : Settings) :
    unkeyed settings.options = [(pstr "--triple", settings.runner.triple), (pstr "--assemble", [])] := by
  obtain ⟨kind, debug, includeDirs, attributes, mcpu, output, input⟩ := settings
  cases debug <;> cases attributes <;> cases output <;> rfl

/-- The arguments of a run represent the store exactly when no include directory is stored and the output
is not the empty path. -/
theorem readsBack_runner (os : Platform) {settings : Settings}
    (full : ∀ attr ∈ settings.attributes, attr ≠ []) (mcpu : settings.mcpu = none) :
    ReadsBack os (settings.llvmMcArguments os) settings.runner ↔
      settings.includeDirs = [] ∧ settings.output ≠ some [] := by
  have read := run_options full
  have values := valuesRead_options full mcpu
  have dirs : content settings.runner .includeDir = settings.includeDirs := by
    obtain ⟨kind, debug, includeDirs, attributes, mcpu, output, input⟩ := settings
    cases includeDirs with
    | nil => rfl
    | cons first rest => exact List.flatMap_singleton' _
  rw [ReadsBack, llvmMcArguments_eq os settings full, List.dropLast_concat, List.getLast?_concat, read]
  constructor
  · rintro ⟨options, same, agree, -⟩
    split at same
    · cases same
    · next named =>
      obtain ⟨-, rfl⟩ := Prod.mk.inj same
      refine ⟨?_, named⟩
      rw [← dirs, ← agree, values, if_pos rfl]
  · rintro ⟨none, named⟩
    refine ⟨settings.options, if_neg named, fun key => ?_, unkeyed_options settings, rfl⟩
    rw [values]
    split
    · next isDir => rw [isDir, dirs, none]
    · rfl

/-! ## Attributes on the command line -/

theorem mattrArguments_append (front back : List PlatformString) :
    mattrArguments (front ++ back) = mattrArguments front ++ mattrArguments back :=
  List.filter_append ..

/-- There is one `--mattr` argument, with all attributes. -/
theorem mattrArguments_shared {settings : Settings} (given : settings.attributes ≠ []) :
    mattrArguments settings.sharedArguments = [pstr "--mattr=" ++ Process.valueList settings.attributes] := by
  obtain ⟨kind, debug, includeDirs, attributes, mcpu, output, input⟩ := settings
  obtain ⟨first, rest, rfl⟩ := List.exists_cons_of_ne_nil given
  cases kind <;> cases debug <;> rfl

theorem mattrArguments_options {settings : Settings} (given : settings.attributes ≠ []) :
    mattrArguments (settings.sharedArguments ++ settings.outputArguments) =
      [pstr "--mattr=" ++ Process.valueList settings.attributes] := by
  have noOutput : mattrArguments settings.outputArguments = [] := by
    unfold outputArguments
    rcases settings.output with _ | _ | ⟨c, output⟩ <;> rfl
  rw [mattrArguments_append, mattrArguments_shared given, noOutput, List.append_nil]

theorem mattrArguments_process (os : Platform) (executablePath : FsPath) {settings : Settings}
    (given : settings.attributes ≠ []) :
    mattrArguments (settings.runner.process os executablePath).args.dropLast =
      [pstr "--mattr=" ++ Process.valueList settings.attributes] := by
  rw [LlvmMcRunner.process_runner, llvmMcArguments, List.dropLast_concat, mattrArguments_options given]

end Settings

end GasAdapter
