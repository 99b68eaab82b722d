import GasAdapter.Model.Gas

/-! # The two executables

`llvm-mc` and the target's `ld` have names of which neither ends with the other. Paths end with the name that
was appended to them, so the two are never the same executable.
-/

namespace GasAdapter

/-- A path that a name was appended to ends with the name, also after lexical normalisation. -/
theorem FsPath.suffix_append (os : Platform) (directory : FsPath) {name : PlatformString}
    (relative : os.pathGrammar.rootNameLength name = 0)
    (plain : ∀ c ∈ name, os.pathGrammar.isSeparator c = false) (ends : ∃ c ∈ name.getLast?, c ≠ '.') :
    name <:+ ((directory.append os name).lexicallyNormal os).native := by
  obtain ⟨front, appended⟩ := os.pathGrammar.append_eq directory.native relative
  change name <:+ os.pathGrammar.lexicallyNormal (os.pathGrammar.append directory.native name)
  rw [appended]
  exact os.pathGrammar.suffix_lexicallyNormal front plain ends

namespace Gas

theorem selectTarget_ldName {os : Platform} {name : PlatformString} {target : Target}
    (selected : selectTarget os name = some target) :
    target.ldName ∈ [arm64ArchPrefix, arm32ArchPrefix, x86ArchPrefix, x64ArchPrefix].map
      (· ++ genericLdName os) := by
  unfold selectTarget at selected
  repeat' split at selected
  all_goals
    cases selected
    try simp

private theorem names_apart (os : Platform) :
    ∀ ldName ∈ [arm64ArchPrefix, arm32ArchPrefix, x86ArchPrefix, x64ArchPrefix].map (· ++ genericLdName os),
      (∀ name ∈ [Constants.llvmMcName os, ldName],
        os.pathGrammar.rootNameLength name = 0 ∧
          (name.all fun c => !os.pathGrammar.isSeparator c) = true ∧ name.getLast?.any (· != '.') = true) ∧
        ¬Constants.llvmMcName os <:+ ldName ∧ ¬ldName <:+ Constants.llvmMcName os := by
  cases os <;> decide

/-- Either executable ends with its name. -/
theorem executable_suffix {os : Platform} {archName : PlatformString} {target : Target}
    (selected : selectTarget os archName = some target) (directory : FsPath) {name : PlatformString}
    (member : name ∈ [Constants.llvmMcName os, target.ldName]) :
    name <:+ ((directory.append os name).lexicallyNormal os).native := by
  obtain ⟨relative, plain, last⟩ := (names_apart os target.ldName (selectTarget_ldName selected)).1 name member
  obtain ⟨c, isLast, notDot⟩ := (Option.any_eq_true _ _).mp last
  exact FsPath.suffix_append os directory relative (by simpa using plain) ⟨c, isLast, by simpa using notDot⟩

theorem ld_not_llvmMc {os : Platform} {archName : PlatformString} {target : Target}
    (selected : selectTarget os archName = some target) (directory : FsPath) :
    ¬Constants.llvmMcName os <:+ ((directory.append os target.ldName).lexicallyNormal os).native := by
  obtain ⟨-, noEnd, noEnd'⟩ := names_apart os target.ldName (selectTarget_ldName selected)
  intro llvmMc
  rcases List.suffix_or_suffix_of_suffix llvmMc (executable_suffix selected directory (by simp)) with
    inside | inside
  · exact noEnd inside
  · exact noEnd' inside

/-- `llvm-mc` and `ld` are never the same executable: neither name is the end of the other. -/
theorem llvmMc_ne_ld {os : Platform} {name : PlatformString} {target : Target}
    (selected : selectTarget os name = some target) (directory : FsPath) :
    (directory.append os (Constants.llvmMcName os)).lexicallyNormal os ≠
      (directory.append os target.ldName).lexicallyNormal os := by
  have llvmMc := executable_suffix selected directory (List.mem_cons_self ..)
  intro same
  rw [same] at llvmMc
  exact ld_not_llvmMc selected directory llvmMc

end Gas

end GasAdapter
