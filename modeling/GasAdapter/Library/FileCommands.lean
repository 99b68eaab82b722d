import GasAdapter.Library.Script
import Mathlib.Data.Set.Basic

/-! # Commands on a store of files

A command may change the files it writes, and says by its code whether it has succeeded. The code, and
after a success what it has written, depend only on the files it reads, and which files these are depends on
their contents, since one file may lead to another. The rules below say when a list of commands does what each
of them does by itself on the files of the beginning, and when doing the whole list a second time changes
nothing.
-/

/-- Commands `π` on a store from keys `κ` to contents `γ`. -/
structure FileCommands (π κ γ : Type) where
  perform : π → (κ → Option γ) → Int × (κ → Option γ)
  /-- What a command reads of some files. -/
  reads : π → (κ → Option γ) → Set κ
  writes : π → Set κ
  frame : ∀ command files, ∀ key ∉ writes command, (perform command files).2 key = files key
  reads_local : ∀ command first second, (∀ key ∈ reads command first, first key = second key) →
    reads command first = reads command second
  code_local : ∀ command first second, (∀ key ∈ reads command first, first key = second key) →
    (perform command first).1 = (perform command second).1
  content_local : ∀ command first second, (∀ key ∈ reads command first, first key = second key) →
    (perform command first).1 = 0 →
      ∀ key ∈ writes command, (perform command first).2 key = (perform command second).2 key

namespace FileCommands

variable {π κ γ : Type} (tools : FileCommands π κ γ)

/-- The files after a list of commands. -/
def after (files : κ → Option γ) (done : List π) : κ → Option γ :=
  done.foldl (fun files command => (tools.perform command files).2) files

/-- The code of a command that is performed after others. -/
def exitCode (files : κ → Option γ) (done : List π) (command : π) : Int :=
  (tools.perform command (tools.after files done)).1

@[simp] theorem after_nil (files : κ → Option γ) : tools.after files [] = files := rfl

theorem after_cons (files : κ → Option γ) (command : π) (rest : List π) :
    tools.after files (command :: rest) = tools.after (tools.perform command files).2 rest := rfl

theorem after_append (files : κ → Option γ) (first second : List π) :
    tools.after files (first ++ second) = tools.after (tools.after files first) second :=
  List.foldl_append ..

/-- A file that no command writes is left alone. -/
theorem after_frame (files : κ → Option γ) {done : List π} {key : κ}
    (free : ∀ command ∈ done, key ∉ tools.writes command) : tools.after files done key = files key := by
  induction done generalizing files with
  | nil => rfl
  | cons command rest ih =>
    obtain ⟨now, later⟩ := List.forall_mem_cons.mp free
    rw [after_cons, ih _ later, tools.frame command files key now]

/-! ## Commands in the order of a list -/

/-- On the files of the beginning, the second command neither reads nor writes what the first writes. -/
def Follows (files : κ → Option γ) (first second : π) : Prop :=
  ∀ key ∈ tools.writes first, key ∉ tools.reads second files ∧ key ∉ tools.writes second

/-- A command that follows all that were done before finds what it reads as it was at the beginning. -/
theorem agree_after (files : κ → Option γ) {before : List π} {command : π}
    (follows : ∀ earlier ∈ before, tools.Follows files earlier command) :
    ∀ key ∈ tools.reads command files, files key = tools.after files before key := by
  intro key read
  symm
  apply tools.after_frame
  intro earlier member written
  exact (follows earlier member key written).1 read

/-- A command that follows all that were done before does what it does at the beginning. -/
theorem perform_after (files : κ → Option γ) {before : List π} {command : π}
    (follows : ∀ earlier ∈ before, tools.Follows files earlier command) :
    tools.exitCode files before command = (tools.perform command files).1 ∧
      ((tools.perform command files).1 = 0 → ∀ key ∈ tools.writes command,
        (tools.perform command (tools.after files before)).2 key = (tools.perform command files).2 key) := by
  have agree := tools.agree_after files follows
  constructor
  · exact (tools.code_local command _ _ agree).symm
  · intro fine key written
    exact (tools.content_local command _ _ agree fine key written).symm

/-- A command that follows all that were done before reads what it reads at the beginning. -/
theorem reads_after (files : κ → Option γ) {before : List π} {command : π}
    (follows : ∀ earlier ∈ before, tools.Follows files earlier command) :
    tools.reads command (tools.after files before) = tools.reads command files :=
  (tools.reads_local command _ _ (tools.agree_after files follows)).symm

/-- Every command follows the ones before it. -/
def Ordered (files : κ → Option γ) (done : List π) : Prop := done.Pairwise (tools.Follows files)

theorem Ordered.follows {files : κ → Option γ} {before later : List π} {command : π}
    (ordered : tools.Ordered files (before ++ command :: later)) :
    ∀ earlier ∈ before, tools.Follows files earlier command := by
  intro earlier member
  exact (List.pairwise_append.mp ordered).2.2 earlier member command (List.mem_cons_self ..)

/-- Ordered commands all succeed when each succeeds at the beginning. -/
theorem succeed_iff (files : κ → Option γ) {done : List π} (ordered : tools.Ordered files done) :
    Script.Succeed (tools.exitCode files) [] done ↔
      ∀ command ∈ done, (tools.perform command files).1 = 0 := by
  constructor
  · intro all command member
    obtain ⟨before, later, rfl⟩ := List.append_of_mem member
    rw [← (tools.perform_after files (ordered.follows tools)).1]
    exact all before command later rfl
  · intro all before command later same
    subst same
    rw [List.nil_append, (tools.perform_after files (ordered.follows tools)).1]
    exact all command (List.mem_append_right _ (List.mem_cons_self ..))

/-- What an ordered command has written stays as it is at the beginning. -/
theorem after_written (files : κ → Option γ) {done : List π} (ordered : tools.Ordered files done)
    {command : π} (member : command ∈ done) (fine : (tools.perform command files).1 = 0) {key : κ}
    (written : key ∈ tools.writes command) :
    tools.after files done key = (tools.perform command files).2 key := by
  obtain ⟨before, later, rfl⟩ := List.append_of_mem member
  have untouched : ∀ other ∈ later, key ∉ tools.writes other := by
    intro other there
    have pair := List.rel_of_pairwise_cons (List.pairwise_append.mp ordered).2.1 there
    exact (pair key written).2
  rw [after_append, after_cons, tools.after_frame _ untouched]
  exact (tools.perform_after files (ordered.follows tools)).2 fine key written

/-- A script of ordered commands goes on when each of them succeeds at the beginning, and otherwise stops
with the code the first of the others has there. -/
theorem run_ordered {ε : Type} (files : κ → Option γ) {done : List π} (ordered : tools.Ordered files done)
    (rest : List (ScriptAction π ε)) :
    ((∀ command ∈ done, (tools.perform command files).1 = 0) ∧
      Script.run (tools.exitCode files) (done.map .start ++ rest) [] =
        Script.run (tools.exitCode files) rest done) ∨
    ∃ before command later, done = before ++ command :: later ∧
      (∀ earlier ∈ before, (tools.perform earlier files).1 = 0) ∧ (tools.perform command files).1 ≠ 0 ∧
      Script.run (tools.exitCode files) (done.map .start ++ rest) [] =
        .ok (tools.perform command files).1 (before ++ [command]) := by
  cases first : done.find? fun command => (tools.perform command files).1 != 0 with
  | none =>
    have all : ∀ command ∈ done, (tools.perform command files).1 = 0 := by
      simpa using List.find?_eq_none.mp first
    exact .inl ⟨all, Script.run_append_of_succeed _ rest ((tools.succeed_iff files ordered).mpr all)⟩
  | some command =>
    obtain ⟨fails, before, later, rfl, fine⟩ := List.find?_eq_some_iff_append.mp first
    have succeed : ∀ earlier ∈ before, (tools.perform earlier files).1 = 0 := by simpa using fine
    have front : tools.Ordered files before := (List.pairwise_append.mp ordered).1
    have code : tools.exitCode files ([] ++ before) command = (tools.perform command files).1 :=
      (tools.perform_after files (ordered.follows tools)).1
    have nonzero : (tools.perform command files).1 ≠ 0 := by simpa using fails
    refine .inr ⟨before, command, later, rfl, succeed, nonzero, ?_⟩
    rw [Script.run_append_of_fails _ rest ((tools.succeed_iff files front).mpr succeed) (by rwa [code]), code]
    rfl

/-! ## Doing it again -/

/-- What a command has read is not written by it or later, and what it has written is not written again. -/
def Settled (files : κ → Option γ) (done : List π) : Prop :=
  ∀ before command later, done = before ++ command :: later →
    (∀ key ∈ tools.reads command (tools.after files before), ∀ other ∈ command :: later, key ∉ tools.writes other) ∧
    ∀ key ∈ tools.writes command, ∀ other ∈ later, key ∉ tools.writes other

/-- Ordered commands are settled, and a last one after them, when nothing that one of them reads at the
beginning is written and the last one writes something new. -/
theorem Ordered.settled_concat {files : κ → Option γ} {done : List π} {last : π}
    (ordered : tools.Ordered files done)
    (unread : ∀ command ∈ done, ∀ key ∈ tools.reads command files, ∀ other ∈ done ++ [last],
      key ∉ tools.writes other)
    (fresh : ∀ command ∈ done, ∀ key ∈ tools.writes command, key ∉ tools.writes last)
    (own : ∀ key ∈ tools.reads last (tools.after files done), key ∉ tools.writes last) :
    tools.Settled files (done ++ [last]) := by
  intro before command later same
  rcases List.eq_nil_or_concat' later with rfl | ⟨later, final, rfl⟩
  · obtain ⟨rfl, rfl⟩ : done = before ∧ last = command := by simpa using List.append_inj' same rfl
    refine ⟨fun key read other there => ?_, fun key written other there => (List.not_mem_nil there).elim⟩
    obtain rfl := List.mem_singleton.mp there
    exact own key read
  · have whole : done ++ [last] = (before ++ command :: later) ++ [final] := by
      rw [same, List.append_assoc, List.cons_append]
    obtain ⟨rfl, rfl⟩ : done = before ++ command :: later ∧ last = final := by
      simpa using List.append_inj' whole rfl
    have here : command ∈ before ++ command :: later := List.mem_append_right _ (List.mem_cons_self ..)
    constructor
    · intro key read other there
      rw [tools.reads_after files (ordered.follows tools)] at read
      refine unread command here key read other ?_
      rw [List.append_assoc]
      exact List.mem_append_right _ there
    · intro key written other there
      rcases List.mem_append.mp there with inner | isLast
      · have pair := List.rel_of_pairwise_cons (List.pairwise_append.mp ordered).2.1 inner
        exact (pair key written).2
      · obtain rfl := List.mem_singleton.mp isLast
        exact fresh command here key written

/-- At the end, every command finds what it found and would write what is there. -/
theorem perform_settled {files : κ → Option γ} {done : List π} (settled : tools.Settled files done)
    (all : Script.Succeed (tools.exitCode files) [] done) {command : π} (member : command ∈ done) :
    tools.perform command (tools.after files done) = (0, tools.after files done) := by
  obtain ⟨before, later, rfl⟩ := List.append_of_mem member
  obtain ⟨unread, once⟩ := settled before command later rfl
  have fine : tools.exitCode files before command = 0 := all before command later rfl
  have agree : ∀ key ∈ tools.reads command (tools.after files before),
      tools.after files before key = tools.after files (before ++ command :: later) key := by
    intro key read
    rw [after_append]
    exact (tools.after_frame _ (unread key read)).symm
  apply Prod.ext
  · exact (tools.code_local command _ _ agree).symm.trans fine
  · funext key
    by_cases written : key ∈ tools.writes command
    · rw [← tools.content_local command _ _ agree fine key written, after_append, after_cons]
      exact (tools.after_frame _ (once key written)).symm
    · exact tools.frame command _ key written

/-- Doing a settled list of commands again succeeds and changes nothing. -/
theorem after_again {files : κ → Option γ} {done : List π} (settled : tools.Settled files done)
    (all : Script.Succeed (tools.exitCode files) [] done) :
    Script.Succeed (tools.exitCode (tools.after files done)) [] done ∧
      tools.after (tools.after files done) done = tools.after files done := by
  have fixed : ∀ front, (∀ command ∈ front, command ∈ done) →
      tools.after (tools.after files done) front = tools.after files done := by
    intro front members
    induction front with
    | nil => rfl
    | cons command rest ih =>
      obtain ⟨here, others⟩ := List.forall_mem_cons.mp members
      rw [after_cons, tools.perform_settled settled all here]
      exact ih others
  constructor
  · intro before command later same
    have front : ∀ other ∈ before, other ∈ done := fun other there => by
      rw [same]
      exact List.mem_append_left _ there
    have here : command ∈ done := by
      rw [same]
      exact List.mem_append_right _ (List.mem_cons_self ..)
    rw [List.nil_append, exitCode, fixed before front, tools.perform_settled settled all here]
  · exact fixed done fun _ there => there

end FileCommands
