import GasAdapter.Soundness.ProcessSequence

/-! # Where the objects go

The object of an input lies in the input's directory, under its file name with the last extension
replaced. Two inputs share an object when they differ in that extension only, and an object can
be a file the user named when that file already has the extension of objects.
-/

namespace GasAdapter

open Reading

namespace FsPath

/-- The path after lexical normalisation, as root, names and a trailing separator. -/
def normalForm (os : Platform) (path : FsPath) : Pathname.NormalForm :=
  os.pathGrammar.normalForm path.native

/-- Where the directories in front of the filename lead. -/
def directoryForm (os : Platform) (path : FsPath) : Pathname.NormalForm :=
  os.pathGrammar.directoryForm path.native

/-- `path::extension`. -/
def extension (os : Platform) (path : FsPath) : PlatformString :=
  Pathname.extension (path.filename os).native

def directoryText (os : Platform) (path : FsPath) : PlatformString :=
  os.pathGrammar.directoryText path.native

/-- `path::stem`. -/
def stem (os : Platform) (path : FsPath) : PlatformString := Pathname.stem (path.filename os).native

/-- Two paths are equal after lexical normalisation. -/
def SameFile (os : Platform) (first second : FsPath) : Prop :=
  first.normalForm os = second.normalForm os

instance (os : Platform) (first second : FsPath) : Decidable (first.SameFile os second) :=
  inferInstanceAs (Decidable (_ = _))

/-- On POSIX that is equality of the texts `path::lexically_normal` returns. -/
theorem sameFile_posix {first second : FsPath} (firstFull : first.native ≠ [])
    (secondFull : second.native ≠ []) :
    first.SameFile .posix second ↔ first.lexicallyNormal .posix = second.lexicallyNormal .posix := by
  rw [lexicallyNormal, lexicallyNormal, FsPath.mk.injEq]
  exact (Pathname.Grammar.lexicallyNormal_eq_iff (fun _ => rfl) firstFull secondFull).symm

theorem filename_ne_nil {os : Platform} {path : FsPath} (named : path.hasFilename os = true) :
    os.pathGrammar.filename path.native ≠ [] := by
  simpa [hasFilename, filename, isEmpty] using named

end FsPath

namespace LlvmMcRunner

private theorem objectExtension_plain (os : Platform) : ∀ c ∈ ['o'], os.pathGrammar.isSeparator c = false := by
  rw [List.forall_mem_singleton]
  cases os <;> rfl

/-- The object lies in the input's directory. -/
theorem normalForm_makeOutputFilePath {os : Platform} {input : FsPath} (named : input.hasFilename os = true) :
    (makeOutputFilePath os input).normalForm os =
      (input.directoryForm os).file (input.stem os ++ pstr ".o") := by
  rw [FsPath.normalForm, makeOutputFilePath, FsPath.makePreferred, FsPath.replaceExtension,
    Pathname.Grammar.normalForm_makePreferred]
  exact os.pathGrammar.normalForm_replaceExtension input.native ['o'] (FsPath.filename_ne_nil named)
    (objectExtension_plain os) (by decide)

/-- Two objects are the same file exactly when the inputs have the same directory and stem. -/
theorem normalForm_makeOutputFilePath_inj {os : Platform} {first second : FsPath}
    (firstNamed : first.hasFilename os = true) (secondNamed : second.hasFilename os = true) :
    (makeOutputFilePath os first).normalForm os = (makeOutputFilePath os second).normalForm os ↔
      (first.directoryForm os, first.stem os) = (second.directoryForm os, second.stem os) := by
  rw [normalForm_makeOutputFilePath firstNamed, normalForm_makeOutputFilePath secondNamed,
    Pathname.NormalForm.file_injective, List.append_left_inj, Prod.mk.injEq]

/-- Two objects have the same path exactly when the inputs spell the same directory and stem. -/
theorem makeOutputFilePath_inj {os : Platform} {first second : FsPath}
    (firstNamed : first.hasFilename os = true) (secondNamed : second.hasFilename os = true) :
    makeOutputFilePath os first = makeOutputFilePath os second ↔
      (os.pathGrammar.makePreferred (first.directoryText os), first.stem os) =
        (os.pathGrammar.makePreferred (second.directoryText os), second.stem os) := by
  rw [makeOutputFilePath, makeOutputFilePath, FsPath.makePreferred, FsPath.makePreferred, FsPath.mk.injEq,
    Prod.mk.injEq]
  exact os.pathGrammar.makePreferred_replaceExtension_inj (FsPath.filename_ne_nil firstNamed)
    (FsPath.filename_ne_nil secondNamed) (objectExtension_plain os)

/-- An object is a given file exactly when that file has the object's name in the same directory. -/
theorem makeOutputFilePath_sameFile {os : Platform} {input other : FsPath}
    (named : input.hasFilename os = true) :
    (makeOutputFilePath os input).SameFile os other ↔
      other.directoryForm os = input.directoryForm os ∧
        (other.filename os).native = input.stem os ++ pstr ".o" := by
  obtain ⟨nonempty, notDot, notDotDot⟩ := Pathname.append_extension_ordinary (input.stem os) ['o']
    (Pathname.stem_ne_nil (FsPath.filename_ne_nil named)) (by decide)
  rw [FsPath.SameFile, normalForm_makeOutputFilePath named, eq_comm]
  exact os.pathGrammar.normalForm_eq_file_iff other.native (input.directoryForm os) rfl nonempty notDot
    notDotDot

end LlvmMcRunner

namespace AcceptedRun

variable {os : Platform} {env : Environment} {args : List PlatformString}

/-- The object path of each input, in order. -/
def objects (accepted : AcceptedRun os env args) : List FsPath :=
  accepted.gas.inputFiles.map (LlvmMcRunner.makeOutputFilePath os)

/-- `ld` is given exactly the object paths after its three first arguments. -/
theorem ldProcess_objects (accepted : AcceptedRun os env args) :
    (Gas.ldProcess os accepted.gas accepted.target.ldName).args.drop 3 =
      accepted.objects.map FsPath.native := by
  obtain ⟨attributes, agrees⟩ := accepted.agrees
  have settled : accepted.gas.gasOutputFile.isEmpty = false := by
    have full := accepted.finalOutput_ne_nil
    rw [agrees.output, accepted.request_output]
    simpa [FsPath.isEmpty] using full
  rw [Gas.ldProcess_eq os _ _ settled, objects, List.map_map]
  rfl

private theorem nodup_map_iff {α β γ : Type} {inputs : List α} {first : α → β} {second : α → γ}
    (agree : ∀ x ∈ inputs, ∀ y ∈ inputs, first x = first y ↔ second x = second y) :
    (inputs.map first).Nodup ↔ (inputs.map second).Nodup := by
  rw [List.Nodup, List.Nodup, List.pairwise_map, List.pairwise_map]
  apply List.Pairwise.iff_of_mem
  intro x y here there
  exact not_congr (agree x here y there)

/-- The objects of a run are different paths exactly when no two inputs spell the same directory and
stem, and different files exactly when no two inputs have the same directory and stem. -/
theorem objects_distinct_iff (accepted : AcceptedRun os env args)
    (named : ∀ input ∈ accepted.gas.inputFiles, input.hasFilename os = true) :
    (∀ input ∈ accepted.gas.inputFiles, ∀ settings : Settings,
      LlvmMcRunner.setInputFilePath os input true settings.runner = .ok () { settings with
        input := input
        output := some (LlvmMcRunner.makeOutputFilePath os input).native }.runner) ∧
      (Gas.ldProcess os accepted.gas accepted.target.ldName).args.drop 3 =
        accepted.objects.map FsPath.native ∧
      (accepted.objects.Nodup ↔ (accepted.gas.inputFiles.map fun input =>
        (os.pathGrammar.makePreferred (input.directoryText os), input.stem os)).Nodup) ∧
      ((accepted.objects.map (FsPath.normalForm os)).Nodup ↔
        (accepted.gas.inputFiles.map fun input => (input.directoryForm os, input.stem os)).Nodup) := by
  refine ⟨?_, accepted.ldProcess_objects, ?_, ?_⟩
  · intro input member settings
    have nonempty : input.isEmpty = false := by
      obtain ⟨attributes, agrees⟩ := accepted.agrees
      rw [agrees.inputs] at member
      have full := (accepted.inputs_wellRead input member).1
      simpa [FsPath.isEmpty] using full
    exact LlvmMcRunner.setInputFilePath_runner os settings input true nonempty (named input member)
  · apply nodup_map_iff
    intro first here second there
    exact LlvmMcRunner.makeOutputFilePath_inj (named first here) (named second there)
  · rw [objects, List.map_map]
    apply nodup_map_iff
    intro first here second there
    exact LlvmMcRunner.normalForm_makeOutputFilePath_inj (named first here) (named second there)

/-- `a.s` and `b/a.s` have different objects. -/
theorem objects_distinct_two :
    ∃ accepted : AcceptedRun .posix .ready
        [pstr "/ndk/as", pstr "@gas-arch=x86_64-linux-android-as", pstr "a.s", pstr "b/a.s"],
      (accepted.objects.map (FsPath.normalForm .posix)).Nodup :=
  ⟨.ofRequest rfl rfl rfl rfl rfl,
    (objects_distinct_iff (.ofRequest rfl rfl rfl rfl rfl) (by decide)).2.2.2.mpr (by decide)⟩

/-- `a.s` and `a.S` share one object: the second run overwrites the first run's, `ld` is given it
twice, and the wrapper returns 0. -/
theorem objects_collide :
    let args := [pstr "/ndk/as", pstr "@gas-arch=x86_64-linux-android-as", pstr "a.s", pstr "a.S"]
    (∃ accepted : AcceptedRun .posix .ready args, ¬accepted.objects.Nodup) ∧
      ∃ first second ld, Gas.run .posix .ready args [] = .ok 0 [first, second, ld] ∧
        pstr "-o=a.o" ∈ first.args ∧ pstr "-o=a.o" ∈ second.args ∧
        ld.args = [pstr "-o", pstr "a.out", pstr "--relocatable", pstr "a.o", pstr "a.o"] :=
  ⟨⟨.ofRequest rfl rfl rfl rfl rfl, by decide⟩, _, _, _, rfl, by decide, by decide, by decide⟩

/-- When the object of a path is one of the user's files: only an input, or the final output, that
already has the object's name in the same directory, and so the extension `.o`. -/
theorem objects_alias_iff (accepted : AcceptedRun os env args) {input other : FsPath}
    (named : input.hasFilename os = true)
    (users : other ∈ accepted.gas.inputFiles ∨ other = ⟨accepted.finalOutput⟩) :
    ((LlvmMcRunner.makeOutputFilePath os input).SameFile os other ↔
        other.directoryForm os = input.directoryForm os ∧
          (other.filename os).native = input.stem os ++ pstr ".o") ∧
      (other.extension os ≠ pstr ".o" → ¬(LlvmMcRunner.makeOutputFilePath os input).SameFile os other) ∧
      (os = .posix → ((LlvmMcRunner.makeOutputFilePath os input).SameFile os other ↔
        (LlvmMcRunner.makeOutputFilePath os input).lexicallyNormal os = other.lexicallyNormal os)) := by
  have aliases := @LlvmMcRunner.makeOutputFilePath_sameFile os input other named
  refine ⟨aliases, ?_, ?_⟩
  · intro otherwise same
    apply otherwise
    rw [FsPath.extension, (aliases.mp same).2]
    have plain : ∀ c ∈ ['o'], c ≠ '.' := List.forall_mem_singleton.mpr (by decide)
    exact Pathname.extension_append (input.stem os) ['o'] (Pathname.stem_ne_nil (FsPath.filename_ne_nil named))
      plain (by decide)
  · rintro rfl
    have full : other.native ≠ [] := by
      rcases users with listed | rfl
      · obtain ⟨attributes, agrees⟩ := accepted.agrees
        rw [agrees.inputs] at listed
        exact (accepted.inputs_wellRead other listed).1
      · exact accepted.finalOutput_ne_nil
    exact FsPath.sameFile_posix (LlvmMcRunner.makeOutputFilePath_ne_nil .posix input) full

/-- The object of `b.s` is not the input `a.s`. -/
theorem objects_alias_two :
    ¬(LlvmMcRunner.makeOutputFilePath .posix ⟨pstr "b.s"⟩).SameFile .posix ⟨pstr "a.s"⟩ :=
  let accepted : AcceptedRun .posix .ready
    [pstr "/ndk/as", pstr "@gas-arch=x86_64-linux-android-as", pstr "a.s", pstr "b.s"] :=
      .ofRequest rfl rfl rfl rfl rfl
  (objects_alias_iff accepted (by decide) (.inl (by decide))).2.1 (by decide)

/-- An input, or the final output, with the name of an object is overwritten. -/
theorem objects_alias_user :
    (∃ accepted : AcceptedRun .posix .ready
        [pstr "/ndk/as", pstr "@gas-arch=x86_64-linux-android-as", pstr "a.s", pstr "./a.o"],
      ∃ object ∈ accepted.objects, ∃ input ∈ accepted.gas.inputFiles,
        object.lexicallyNormal .posix = input.lexicallyNormal .posix) ∧
    ∃ accepted : AcceptedRun .posix .ready
        [pstr "/ndk/as", pstr "@gas-arch=x86_64-linux-android-as", pstr "-o", pstr "a.o", pstr "a.s",
          pstr "b.s"],
      ∃ object ∈ accepted.objects,
        object.lexicallyNormal .posix = accepted.gas.gasOutputFile.lexicallyNormal .posix :=
  ⟨⟨.ofRequest rfl rfl rfl rfl rfl, ⟨pstr "a.o"⟩, by decide, ⟨pstr "./a.o"⟩, by decide, by decide⟩,
    .ofRequest rfl rfl rfl rfl rfl, ⟨pstr "a.o"⟩, by decide, by decide⟩

end AcceptedRun

end GasAdapter
