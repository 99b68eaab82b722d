import GasAdapter.Soundness.CommandLine

/-! # Parsing in parts

The parser reads a command line from left to right and keeps little in between, so what it does on
a whole is what it does on the parts: with nothing left waiting the second part is read by itself,
its positional arguments numbered on, and a waiting option takes the first argument that is not
empty. The flag and the optional of the loop say the same thing before every iteration.
-/

namespace GasAdapter.CommandLine

open Reading

/-- The callbacks one iteration makes and the locals it leaves, unless it fails. -/
def iteration (targetArch : TargetArchitecture) (options : List CommandLineOption) (locals : Locals)
    (option : PlatformString) : Option (List Call × Locals) :=
  let ended := (loopBody targetArch options recordCall unheard locals option).run []
  ended.1.map fun locals => (ended.2, locals)

/-- The locals the iterations over some arguments leave, unless one of them fails. -/
def iterate (targetArch : TargetArchitecture) (options : List CommandLineOption) (locals : Locals)
    (args : List PlatformString) : Option Locals :=
  args.foldlM (fun locals option => (iteration targetArch options locals option).map Prod.snd) locals

/-- A callback made with more positional arguments before it. -/
def Call.shift (more : ℕ) : Call → Call
  | (.positional count, value) => (.positional (count + UInt32.ofNat more), value)
  | (.option opt, value) => (.option opt, value)

/-- What becomes of `made` and a waiting option when more arguments follow: the first that is not
empty is the option's value, and the rest is parsed as by itself. -/
def served (targetArch : TargetArchitecture) (options : List CommandLineOption) (program : PlatformString)
    (made : List Call) (opt : CommandLineOption) (args : List PlatformString) : Bool × List Call :=
  match args.dropWhile List.isEmpty with
  | [] => (false, made)
  | value :: rest =>
      let later := recorded targetArch options (program :: rest)
      (later.1, made ++ (.option opt, .string value) :: later.2.map (Call.shift (positionals made)))

section Parts

variable {targetArch : TargetArchitecture} {options : List CommandLineOption} {program : PlatformString}

/-- An iteration is a step of the reader. -/
theorem iteration_eq (count : UInt32) (waiting : Option CommandLineOption) (option : PlatformString) :
    iteration targetArch options (localsFor count waiting) option =
      some (calls count (readArg targetArch options waiting option).2,
        localsFor (count + UInt32.ofNat (positionalCount (readArg targetArch options waiting option).2))
          (readArg targetArch options waiting option).1) := by
  rw [iteration, loopBody_eq, performItems_unheard, StateT.run_bind, perform_recordCall]
  rfl

/-- Every iteration finds its flag and its optional in agreement, and none of them fails. -/
theorem iterate_eq (count : UInt32) (waiting : Option CommandLineOption) (args : List PlatformString) :
    iterate targetArch options (localsFor count waiting) args =
      some (localsFor (count + UInt32.ofNat (positionalCount ((reader targetArch options).run waiting args).2))
        ((reader targetArch options).run waiting args).1) := by
  induction args generalizing count waiting with
  | nil => simp [iterate, positionalCount]
  | cons option rest ih =>
    have next : iterate targetArch options (localsFor count waiting) (option :: rest) =
        iterate targetArch options
          (localsFor (count + UInt32.ofNat (positionalCount (readArg targetArch options waiting option).2))
            (readArg targetArch options waiting option).1) rest := by
      rw [iterate, List.foldlM_cons, iteration_eq]
      rfl
    have numbered : positionalCount ((readArg targetArch options waiting option).2 ++
        ((reader targetArch options).run (readArg targetArch options waiting option).1 rest).2) =
        positionalCount (readArg targetArch options waiting option).2 +
          positionalCount ((reader targetArch options).run (readArg targetArch options waiting option).1 rest).2 :=
      List.countP_append
    rw [next, ih, Transducer.run_cons, UInt32.add_assoc, ← UInt32.ofNat_add, ← numbered]
    rfl

theorem calls_shift (count : UInt32) (more : ℕ) (items : List Item) :
    calls (count + UInt32.ofNat more) items = (calls count items).map (Call.shift more) := by
  induction items generalizing count with
  | nil => rfl
  | cons item rest ih =>
    cases item with
    | positional text =>
      have next : count + UInt32.ofNat more + 1 = count + 1 + UInt32.ofNat more := by
        rw [UInt32.add_assoc, UInt32.add_assoc, UInt32.add_comm (UInt32.ofNat more)]
      simp only [calls, next, ih, List.map_cons, Call.shift]
    | option opt value => simp only [calls, ih, List.map_cons, Call.shift]
    | unrecognized arg => exact ih count

/-- A waiting option skips empty arguments. -/
theorem run_waiting (opt : CommandLineOption) (args : List PlatformString) :
    (reader targetArch options).run (some opt) args =
      (reader targetArch options).run (some opt) (args.dropWhile List.isEmpty) := by
  induction args with
  | nil => rfl
  | cons arg rest ih =>
    cases arg with
    | nil => exact ih
    | cons c arg => rfl

theorem positionals_recorded (args : List PlatformString) :
    positionals (recorded targetArch options (program :: args)).2 =
      positionalCount (items targetArch options args) := by
  rw [recorded_eq, positionals_calls]
  rfl

/-- The items of a later part, numbered on, are the callbacks of that part shifted. -/
private theorem calls_recorded (before args : List PlatformString) :
    calls (UInt32.ofNat (positionalCount (items targetArch options before))) (items targetArch options args) =
      (recorded targetArch options (program :: args)).2.map
        (Call.shift (positionals (recorded targetArch options (program :: before)).2)) := by
  have shifted := calls_shift 0 (positionalCount (items targetArch options before))
    (items targetArch options args)
  rw [UInt32.zero_add] at shifted
  rw [shifted, positionals_recorded, recorded_eq]
  rfl

/-- What is parsed after a part that leaves an option waiting. -/
theorem recorded_waiting {before : List PlatformString} {opt : CommandLineOption}
    (waits : pending targetArch options before = some opt) (args : List PlatformString) :
    recorded targetArch options (program :: (before ++ args)) =
      served targetArch options program (recorded targetArch options (program :: before)).2 opt args := by
  have whole := (reader targetArch options).run_append none before args
  rw [pending] at waits
  rw [waits, run_waiting] at whole
  have made : (recorded targetArch options (program :: before)).2 =
      calls 0 (items targetArch options before) := by
    rw [recorded_eq]
    rfl
  rw [served, recorded_eq, List.drop_one, List.tail_cons, items, pending, whole, calls_append,
    UInt32.zero_add]
  cases left : args.dropWhile List.isEmpty with
  | nil => simp [calls, made, items]
  | cons value rest =>
    have nonempty : value ≠ [] := by
      rintro rfl
      have head := List.head?_dropWhile_not List.isEmpty args
      simp [left] at head
    have later := @calls_recorded targetArch options program before rest
    rw [run_value opt nonempty, calls]
    change ((pending targetArch options rest).isNone, calls 0 (items targetArch options before) ++ _ ::
      calls (UInt32.ofNat (positionalCount (items targetArch options before)))
        (items targetArch options rest)) = _
    rw [later, made]
    simp only [recorded_eq]
    rfl

end Parts

/-- A command line in two parts. When the first leaves nothing waiting, the second is parsed as by
itself, with its positional arguments numbered on. When it fails, one Required option waits, and takes
the first argument of the second part that is not empty. After every part the loop's flag and its
optional agree, so the failure inside the loop is out of reach, and with them the loop goes on whatever
the callback. -/
theorem recorded_parts (targetArch : TargetArchitecture) (options : List CommandLineOption)
    (program : PlatformString) (before after : List PlatformString) :
    let first := recorded targetArch options (program :: before)
    let second := recorded targetArch options (program :: after)
    (first.1 = true → recorded targetArch options (program :: (before ++ after)) =
      (second.1, first.2 ++ second.2.map (Call.shift (positionals first.2)))) ∧
    (first.1 = false → ∃ opt, Known targetArch options opt ∧ opt.argument = .required ∧
      iterate targetArch options {} before = some ⟨UInt32.ofNat (positionals first.2), true, some opt⟩ ∧
      recorded targetArch options (program :: (before ++ after)) =
        served targetArch options program first.2 opt after) ∧
    ∃ locals, iterate targetArch options {} before = some locals ∧
      locals.nextArgIsValue = locals.lastOpt.isSome ∧
      (∀ option, iteration targetArch options locals option ≠ none) ∧
      ∀ (m : Type → Type) [Monad m] [LawfulMonad m] (optionCb : CallbackOption → OptionValue → m Unit) rest,
        parseLoop targetArch options optionCb unheard {} (before ++ rest) =
          perform optionCb first.2 >>= fun _ => parseLoop targetArch options optionCb unheard locals rest := by
  intro first second
  have locals := @iterate_eq targetArch options 0 none before
  rw [UInt32.zero_add] at locals
  have result : first.1 = (pending targetArch options before).isNone := by
    simp only [first, recorded_eq]
    rfl
  refine ⟨?_, ?_, ?_⟩
  · intro position
    rw [recorded_append position, @calls_recorded targetArch options program before after]
    simp only [second, first, recorded_eq]
    rfl
  · intro fails
    rw [result] at fails
    cases waits : pending targetArch options before with
    | none => rw [waits] at fails; cases fails
    | some opt =>
      obtain ⟨known, required⟩ := (items_wellRead targetArch options before).1 opt waits
      refine ⟨opt, known, required, ?_, recorded_waiting waits after⟩
      rw [pending] at waits
      rw [positionals_recorded, items]
      exact locals.trans (by rw [waits]; rfl)
  · refine ⟨_, locals, rfl, ?_, ?_⟩
    · intro option fails
      rw [iteration_eq] at fails
      cases fails
    · intro m _ _ optionCb rest
      have loop := parseLoop_append targetArch options optionCb unheard 0 none before rest
      rw [performItems_unheard, UInt32.zero_add] at loop
      have made : first.2 = calls 0 (items targetArch options before) := by
        simp only [first, recorded_eq]
        rfl
      rw [made]
      exact loop

/-- After `a.s -o` an empty argument is skipped and `-g` is the output; the second positional argument
is number 1. -/
theorem recorded_parts_waiting :
    let output : CommandLineOption := { name := pstr "o", id := .o, argument := .required }
    let before := [pstr "a.s", pstr "-o"]
    let after := [[], pstr "-g", pstr "b.s"]
    (recorded .x64 Gas.allOptions (pstr "as" :: before)).1 = false ∧
      recorded .x64 Gas.allOptions (pstr "as" :: (before ++ after)) = (true, [
        (.positional 0, .string (pstr "a.s")), (.option output, .string (pstr "-g")),
        (.positional 1, .string (pstr "b.s"))]) ∧
      recorded .x64 Gas.allOptions (pstr "as" :: (after.drop 1 ++ [pstr "c.s"])) =
        (true, (recorded .x64 Gas.allOptions (pstr "as" :: after.drop 1)).2 ++
          [(.positional 1, .string (pstr "c.s"))]) := by
  intro output before after
  have waits := (recorded_parts .x64 Gas.allOptions (pstr "as") before after).2.1 rfl
  obtain ⟨opt, -, -, locals, whole⟩ := waits
  obtain rfl : output = opt := by
    have same : iterate .x64 Gas.allOptions {} before = some ⟨1, true, some output⟩ := rfl
    rw [same] at locals
    injection locals with locals
    injection locals with _ _ locals
    exact Option.some.inj locals
  exact ⟨rfl, whole.trans rfl,
    (recorded_parts .x64 Gas.allOptions (pstr "as") (after.drop 1) [pstr "c.s"]).1 rfl⟩

end GasAdapter.CommandLine
