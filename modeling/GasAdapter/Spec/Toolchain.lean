import GasAdapter.Library.FileCommands
import GasAdapter.Spec.Tasks
import Mathlib.Data.Set.Insert

/-! # The tools behind the wrapper

`llvm-mc` and `ld` are programs of their own. A `Toolchain` says of them what the wrapper relies on: a
task reads some files, and either makes the contents of one file or ends with a code that is not 0. An
assembler may be led from one file to others by what it finds there.
Processes then are commands on a store of files. `Toolchain.gas` is what the wrapper stands for: one
assembler that takes several inputs and makes a single file of them.
-/

namespace GasAdapter

/-- A code that says that something went wrong. -/
abbrev ErrorCode := { code : Int // code ≠ 0 }

/-- The code a process ends with, given what it has made. -/
def exitStatus {γ : Type} : Except ErrorCode γ → Int
  | .ok _ => 0
  | .error code => code

theorem exitStatus_eq_zero {γ : Type} {made : Except ErrorCode γ} :
    exitStatus made = 0 ↔ ∃ content, made = .ok content := by
  cases made with
  | ok content => exact ⟨fun _ => ⟨content, rfl⟩, fun _ => rfl⟩
  | error code =>
    constructor
    · exact fun zero => (code.2 zero).elim
    · rintro ⟨content, same⟩
      cases same

/-- The tools on a system whose files have keys `κ` and contents `γ`. -/
structure Toolchain (κ γ : Type) extends ToolReaders where
  /-- The file a path leads to. -/
  locate : PlatformString → κ
  assembled : List (PlatformString × PlatformString) → PlatformString → (κ → Option γ) → Except ErrorCode γ
  linked : List (Option γ) → Except ErrorCode γ
  /-- What a task that fails leaves in place of its output. -/
  residue : Task → (κ → Option γ) → Option γ
  /-- The input and all files that are included, as they are among some files. -/
  consulted : List (PlatformString × PlatformString) → PlatformString → (κ → Option γ) → Set κ
  consulted_local : ∀ options input first second,
    (∀ key ∈ consulted options input first, first key = second key) →
      consulted options input first = consulted options input second
  assembled_local : ∀ options input first second,
    (∀ key ∈ consulted options input first, first key = second key) →
      assembled options input first = assembled options input second

namespace Toolchain

variable {κ γ : Type} (tools : Toolchain κ γ)

/-- What a task makes of the files. -/
def product (task : Task) (files : κ → Option γ) : Except ErrorCode γ :=
  match task with
  | .assemble options _ input => tools.assembled options input files
  | .link _ objects => tools.linked (objects.map fun object => files (tools.locate object))

def reads (task : Task) (files : κ → Option γ) : Set κ :=
  match task with
  | .assemble options _ input => tools.consulted options input files
  | .link _ objects => { key | ∃ object ∈ objects, tools.locate object = key }

theorem reads_local (task : Task) {first second : κ → Option γ}
    (agree : ∀ key ∈ tools.reads task first, first key = second key) :
    tools.reads task first = tools.reads task second := by
  cases task with
  | assemble options output input => exact tools.consulted_local options input first second agree
  | link output objects => rfl

theorem product_local (task : Task) {first second : κ → Option γ}
    (agree : ∀ key ∈ tools.reads task first, first key = second key) :
    tools.product task first = tools.product task second := by
  cases task with
  | assemble options output input => exact tools.assembled_local options input first second agree
  | link output objects =>
    have contents := List.map_congr_left fun object member => agree _ ⟨object, member, rfl⟩
    exact congrArg tools.linked contents

/-! ## Several inputs -/

/-- What assembling the inputs together makes: the objects of all of them, each assembled from the files as
they are, linked in order. One input is its object. -/
def gas (options : List (PlatformString × PlatformString)) (inputs : List PlatformString)
    (files : κ → Option γ) : Except ErrorCode γ :=
  match inputs with
  | [input] => tools.assembled options input files
  | inputs => do
      let objects ← inputs.mapM fun input => tools.assembled options input files
      tools.linked (objects.map some)

/-- The first input that cannot be assembled decides. -/
theorem gas_of_error (options : List (PlatformString × PlatformString)) {before after : List PlatformString}
    {input : PlatformString} {files : κ → Option γ} {code : ErrorCode}
    (fine : ∀ other ∈ before, ∃ content, tools.assembled options other files = .ok content)
    (fails : tools.assembled options input files = .error code) :
    tools.gas options (before ++ input :: after) files = .error code := by
  have stops : (before ++ input :: after).mapM (fun input => tools.assembled options input files) =
      .error code := by
    induction before with
    | nil => rw [List.nil_append, List.mapM_cons, fails]; rfl
    | cons other before ih =>
      obtain ⟨⟨content, made⟩, later⟩ := List.forall_mem_cons.mp fine
      rw [List.cons_append, List.mapM_cons, made, ih later]
      rfl
  unfold gas
  split
  · next only same =>
    cases before with
    | nil =>
      obtain ⟨rfl, -⟩ := List.cons.inj same
      exact fails
    | cons other before => simp at same
  · rw [stops]
    rfl

/-- Several inputs that can all be assembled are linked. -/
theorem gas_of_ok (options : List (PlatformString × PlatformString)) {inputs : List PlatformString}
    {files : κ → Option γ} (several : 2 ≤ inputs.length)
    (fine : ∀ input ∈ inputs, ∃ content, tools.assembled options input files = .ok content) :
    tools.gas options inputs files =
      tools.linked (inputs.map fun input => (tools.assembled options input files).toOption) := by
  have all (inputs : List PlatformString)
      (fine : ∀ input ∈ inputs, ∃ content, tools.assembled options input files = .ok content) :
      ∃ contents, inputs.mapM (fun input => tools.assembled options input files) = .ok contents ∧
        contents.map some = inputs.map fun input => (tools.assembled options input files).toOption := by
    induction inputs with
    | nil => exact ⟨[], rfl, rfl⟩
    | cons input rest ih =>
      obtain ⟨⟨content, made⟩, later⟩ := List.forall_mem_cons.mp fine
      obtain ⟨contents, read, same⟩ := ih later
      refine ⟨content :: contents, ?_, ?_⟩
      · rw [List.mapM_cons, made, read]
        rfl
      · rw [List.map_cons, List.map_cons, same, made]
        rfl
  obtain ⟨contents, read, same⟩ := all inputs fine
  unfold gas
  split
  · simp at several
  · rw [read, ← same]
    rfl

/-! ## Processes as commands -/

variable [DecidableEq κ]

def perform (task : Task) (files : κ → Option γ) : Int × (κ → Option γ) :=
  match tools.product task files with
  | .ok content => (0, Function.update files (tools.locate task.output) (some content))
  | .error code => (code, Function.update files (tools.locate task.output) (tools.residue task files))

theorem perform_of_ok {task : Task} {files : κ → Option γ} {content : γ}
    (made : tools.product task files = .ok content) :
    tools.perform task files = (0, Function.update files (tools.locate task.output) (some content)) := by
  rw [perform, made]

theorem perform_code (task : Task) (files : κ → Option γ) :
    (tools.perform task files).1 = exitStatus (tools.product task files) := by
  unfold perform
  cases tools.product task files <;> rfl

theorem perform_frame (task : Task) (files : κ → Option γ) {key : κ} (other : key ≠ tools.locate task.output) :
    (tools.perform task files).2 key = files key := by
  unfold perform
  cases tools.product task files <;> exact Function.update_of_ne other _ _

/-- Processes change the files as their tasks do; one whose arguments cannot be read changes nothing. -/
def commands (os : Platform) : FileCommands Process κ γ where
  perform process files := (tools.task os process).elim (1, files) (tools.perform · files)
  reads process files := (tools.task os process).elim ∅ (tools.reads · files)
  writes process := (tools.task os process).elim ∅ fun task => {tools.locate task.output}
  frame := by
    intro process files key free
    cases asked : tools.task os process with
    | none => rfl
    | some task =>
      rw [asked] at free
      exact tools.perform_frame task files free
  reads_local := by
    intro process first second agree
    cases asked : tools.task os process with
    | none => rfl
    | some task =>
      rw [asked] at agree
      exact tools.reads_local task agree
  code_local := by
    intro process first second agree
    cases asked : tools.task os process with
    | none => rfl
    | some task =>
      rw [asked] at agree
      simp only [Option.elim_some, perform_code, tools.product_local task agree]
  content_local := by
    intro process first second agree fine key written
    cases asked : tools.task os process with
    | none =>
      rw [asked] at written
      cases written
    | some task =>
      rw [asked] at agree fine written
      obtain rfl := Set.mem_singleton_iff.mp written
      rw [Option.elim_some, perform_code] at fine
      obtain ⟨content, made⟩ := exitStatus_eq_zero.mp fine
      have same := tools.product_local task agree
      rw [made] at same
      simp only [Option.elim_some, tools.perform_of_ok made, tools.perform_of_ok same.symm,
        Function.update_self]

section

variable {os : Platform} {process : Process} {task : Task} (asked : tools.task os process = some task)

include asked

theorem commands_perform (files : κ → Option γ) :
    (tools.commands os).perform process files = tools.perform task files := by
  simp only [commands, asked, Option.elim_some]

theorem commands_reads (files : κ → Option γ) :
    (tools.commands os).reads process files = tools.reads task files := by
  simp only [commands, asked, Option.elim_some]

theorem commands_writes : (tools.commands os).writes process = {tools.locate task.output} := by
  simp only [commands, asked, Option.elim_some]

end

/-- The surroundings of a run whose children are the tools, on the given files. -/
def environment (os : Platform) (files : κ → Option γ) (surroundings : Environment) : Environment :=
  { surroundings with exitCode := (tools.commands os).exitCode files }

end Toolchain

end GasAdapter
