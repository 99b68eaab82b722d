import GasAdapter.Library.Transducer
import GasAdapter.Model.CommandLine

/-! # What a command line says

A command line is read into items: positional arguments, options with their values, and options
the table does not have. The reader's only state is the Required option that still waits for its
value. It mentions no callbacks, counters or loop flags.
-/

namespace GasAdapter

/-- One thing a command line says. -/
inductive Item where
  | positional (text : PlatformString)
  | option (opt : CommandLineOption) (value : PlatformString)
  | unrecognized (arg : PlatformString)
deriving DecidableEq, Repr

namespace Reading

open CommandLine

/-- An argument in option position starts with at least one dash. -/
def isDashed (arg : PlatformString) : Bool := arg.head? == some dash

/-- The text between the leading dashes and the first `=`. -/
def optionName (arg : PlatformString) : PlatformString :=
  (arg.dropWhile (· == dash)).takeWhile (· != equals)

/-- The text after the first `=`; empty when there is none. -/
def attachedValue (arg : PlatformString) : PlatformString := (arg.dropWhile (· != equals)).drop 1

/-- The first entry of the table with the name, applicable to the architecture. -/
def lookup (targetArch : TargetArchitecture) (options : List CommandLineOption)
    (name : PlatformString) : Option CommandLineOption :=
  options.find? (matchingOption targetArch name)

/-- What a dashed argument means where an option may stand. -/
def readOption (targetArch : TargetArchitecture) (options : List CommandLineOption)
    (arg : PlatformString) : Option CommandLineOption × List Item :=
  match lookup targetArch options (optionName arg) with
  | none => (none, [.unrecognized arg])
  | some opt =>
      if opt.argument == .required && (attachedValue arg).isEmpty then (some opt, [])
      else (none, [.option opt (attachedValue arg)])

/-- One argument, read while `pending` waits for its value. Empty arguments say nothing. -/
def readArg (targetArch : TargetArchitecture) (options : List CommandLineOption)
    (pending : Option CommandLineOption) (arg : PlatformString) :
    Option CommandLineOption × List Item :=
  if arg.isEmpty then (pending, [])
  else
    match pending with
    | some opt => (none, [.option opt arg])
    | none => if isDashed arg then readOption targetArch options arg else (none, [.positional arg])

def reader (targetArch : TargetArchitecture) (options : List CommandLineOption) :
    Transducer (Option CommandLineOption) PlatformString Item :=
  ⟨readArg targetArch options⟩

/-- The items of the arguments after `args[0]`. -/
def items (targetArch : TargetArchitecture) (options : List CommandLineOption)
    (args : List PlatformString) : List Item :=
  ((reader targetArch options).run none args).2

/-- The Required option that is left without a value. -/
def pending (targetArch : TargetArchitecture) (options : List CommandLineOption)
    (args : List PlatformString) : Option CommandLineOption :=
  ((reader targetArch options).run none args).1

/-! ## One argument at a time -/

section Steps

variable {targetArch : TargetArchitecture} {options : List CommandLineOption}
  {arg : PlatformString} {rest : List PlatformString}

theorem ne_nil_of_isDashed (dashed : isDashed arg = true) : arg ≠ [] := by
  rintro rfl
  contradiction

/-- A Required option takes the next nonempty argument, whatever it looks like. -/
theorem run_value (opt : CommandLineOption) (nonempty : arg ≠ []) :
    (reader targetArch options).run (some opt) (arg :: rest) =
      (((reader targetArch options).run none rest).1,
        .option opt arg :: ((reader targetArch options).run none rest).2) := by
  have step : (reader targetArch options).step (some opt) arg = (none, [.option opt arg]) := by
    simp [reader, readArg, nonempty]
  rw [Transducer.run_cons, step, List.singleton_append]

theorem run_positional (nonempty : arg ≠ []) (plain : isDashed arg = false) :
    (reader targetArch options).run none (arg :: rest) =
      (((reader targetArch options).run none rest).1,
        .positional arg :: ((reader targetArch options).run none rest).2) := by
  have step : (reader targetArch options).step none arg = (none, [.positional arg]) := by
    simp [reader, readArg, nonempty, plain]
  rw [Transducer.run_cons, step, List.singleton_append]

/-- A Required option without text after an `=` waits. -/
theorem run_waits {opt : CommandLineOption} (dashed : isDashed arg = true)
    (known : lookup targetArch options (optionName arg) = some opt)
    (required : opt.argument = .required) (bare : attachedValue arg = []) :
    (reader targetArch options).run none (arg :: rest) =
      (reader targetArch options).run (some opt) rest := by
  have step : (reader targetArch options).step none arg = (some opt, []) := by
    simp [reader, readArg, readOption, ne_nil_of_isDashed dashed, dashed, known, required, bare]
  rw [Transducer.run_cons, step, List.nil_append]

theorem run_option {opt : CommandLineOption} (dashed : isDashed arg = true)
    (known : lookup targetArch options (optionName arg) = some opt)
    (complete : opt.argument = .required → attachedValue arg ≠ []) :
    (reader targetArch options).run none (arg :: rest) =
      (((reader targetArch options).run none rest).1,
        .option opt (attachedValue arg) :: ((reader targetArch options).run none rest).2) := by
  have step : (reader targetArch options).step none arg =
      (none, [.option opt (attachedValue arg)]) := by
    have goesOn : (opt.argument == .required && (attachedValue arg).isEmpty) = false := by
      simpa using complete
    simp [reader, readArg, readOption, ne_nil_of_isDashed dashed, dashed, known, goesOn]
  rw [Transducer.run_cons, step, List.singleton_append]

end Steps

/-! ## What is read -/

/-- An option the table has for the architecture. -/
def Known (targetArch : TargetArchitecture) (options : List CommandLineOption)
    (opt : CommandLineOption) : Prop := ∃ name, lookup targetArch options name = some opt

theorem Known.mem {targetArch : TargetArchitecture} {options : List CommandLineOption}
    {opt : CommandLineOption} (known : Known targetArch options opt) :
    opt ∈ options ∧ (opt.arch = .any ∨ opt.arch = targetArch) := by
  obtain ⟨name, found⟩ := known
  refine ⟨List.mem_of_find?_eq_some found, ?_⟩
  have accepted := List.find?_some found
  unfold matchingOption at accepted
  split at accepted
  · contradiction
  · simpa using accepted

/-- Items name their argument or an option of the table. A positional argument is neither empty
nor dashed, and the value of a Required option is never empty. -/
def WellRead (targetArch : TargetArchitecture) (options : List CommandLineOption) : Item → Prop
  | .positional text => text ≠ [] ∧ isDashed text = false
  | .option opt value => Known targetArch options opt ∧ (opt.argument = .required → value ≠ [])
  | .unrecognized arg => isDashed arg = true ∧ lookup targetArch options (optionName arg) = none

/-- What waits for a value is a Required option of the table. -/
def WaitsWell (targetArch : TargetArchitecture) (options : List CommandLineOption)
    (pending : Option CommandLineOption) : Prop :=
  ∀ opt ∈ pending, Known targetArch options opt ∧ opt.argument = .required

theorem readArg_wellRead (targetArch : TargetArchitecture) (options : List CommandLineOption)
    (pending : Option CommandLineOption) (arg : PlatformString)
    (waits : WaitsWell targetArch options pending) :
    WaitsWell targetArch options (readArg targetArch options pending arg).1 ∧
      ∀ item ∈ (readArg targetArch options pending arg).2, WellRead targetArch options item := by
  unfold readArg
  split
  · exact ⟨waits, by simp⟩
  · next nonempty =>
    have full : arg ≠ [] := by simpa using nonempty
    cases pending with
    | some opt =>
      refine ⟨by simp [WaitsWell], ?_⟩
      intro item member
      obtain rfl := List.mem_singleton.mp member
      exact ⟨(waits opt rfl).1, fun _ => full⟩
    | none =>
      cases dashed : isDashed arg with
      | false =>
        refine ⟨by simp [WaitsWell], ?_⟩
        intro item member
        obtain rfl := List.mem_singleton.mp member
        exact ⟨full, dashed⟩
      | true =>
        simp only [↓reduceIte, readOption]
        cases known : lookup targetArch options (optionName arg) with
        | none =>
          refine ⟨by simp [WaitsWell], ?_⟩
          intro item member
          obtain rfl := List.mem_singleton.mp member
          exact ⟨dashed, known⟩
        | some opt =>
          by_cases bare : opt.argument = .required ∧ attachedValue arg = []
          · simp only [bare.1, bare.2]
            refine ⟨?_, by simp⟩
            intro other same
            obtain rfl := Option.some.inj same
            exact ⟨⟨_, known⟩, bare.1⟩
          · have goesOn : (opt.argument == .required && (attachedValue arg).isEmpty) = false := by
              simpa using bare
            simp only [goesOn]
            refine ⟨by simp [WaitsWell], ?_⟩
            intro item member
            obtain rfl := List.mem_singleton.mp member
            exact ⟨⟨_, known⟩, fun required => fun none => bare ⟨required, none⟩⟩

/-- Everything a command line says is well read, and so is what it leaves waiting. -/
theorem items_wellRead (targetArch : TargetArchitecture) (options : List CommandLineOption)
    (args : List PlatformString) :
    WaitsWell targetArch options (pending targetArch options args) ∧
      ∀ item ∈ items targetArch options args, WellRead targetArch options item :=
  (reader targetArch options).run_invariant (WaitsWell targetArch options)
    (WellRead targetArch options) (readArg_wellRead targetArch options) (by simp [WaitsWell]) args

/-- Whether an option with one of the names was read. -/
def readsNamed (names : List PlatformString) (items : List Item) : Bool :=
  items.any fun
    | .option opt _ => names.contains opt.name
    | _ => false

/-- The values read for the option with a name, in order. -/
def valuesNamed (name : PlatformString) (items : List Item) : List PlatformString :=
  items.filterMap fun
    | .option opt value => if opt.name == name then some value else none
    | _ => none

theorem readsNamed_append (names : List PlatformString) (first second : List Item) :
    readsNamed names (first ++ second) = (readsNamed names first || readsNamed names second) :=
  List.any_append

theorem valuesNamed_append (name : PlatformString) (first second : List Item) :
    valuesNamed name (first ++ second) = valuesNamed name first ++ valuesNamed name second :=
  List.filterMap_append

/-! ## Callbacks -/

/-- The callbacks for a list of items, with `count` positional arguments before them. -/
def calls : UInt32 → List Item → List Call
  | _, [] => []
  | count, .positional text :: rest => (.positional count, .string text) :: calls (count + 1) rest
  | count, .option opt value :: rest => (.option opt, .string value) :: calls count rest
  | count, .unrecognized _ :: rest => calls count rest

def isPositional : Item → Bool
  | .positional _ => true
  | _ => false

def positionalCount (items : List Item) : ℕ := items.countP isPositional

@[simp] theorem positionalCount_cons_positional (text : PlatformString) (rest : List Item) :
    positionalCount (.positional text :: rest) = 1 + positionalCount rest := by
  rw [positionalCount, List.countP_cons_of_pos rfl, Nat.add_comm, positionalCount]

theorem calls_append (count : UInt32) (first second : List Item) :
    calls count (first ++ second) =
      calls count first ++ calls (count + UInt32.ofNat (positionalCount first)) second := by
  induction first generalizing count with
  | nil => simp [calls, positionalCount]
  | cons item rest ih =>
    cases item with
    | positional text =>
      have shift : count + 1 + UInt32.ofNat (positionalCount rest) =
          count + UInt32.ofNat (positionalCount (.positional text :: rest)) := by
        rw [positionalCount_cons_positional, UInt32.ofNat_add, UInt32.add_assoc]
        rfl
      simp only [List.cons_append, calls, ih, shift]
    | option opt value =>
      simp only [List.cons_append, calls, ih]
      rfl
    | unrecognized arg =>
      simp only [List.cons_append, calls, ih]
      rfl

end Reading

end GasAdapter
