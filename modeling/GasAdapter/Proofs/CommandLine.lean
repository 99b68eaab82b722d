import GasAdapter.Spec.Reading

/-! # The parser makes the callbacks of the items it reads

The loop of `CommandLine::parse` simulates the reader of `Spec.Reading`: its flag and its optional
always agree, they are the reader's pending option, and its counter is the number of positional
arguments so far. For any two callbacks, effects and exceptions included, parsing is performing the
callbacks and the complaints of the items one after the other.
-/

namespace GasAdapter.CommandLine

open Reading

variable {m : Type → Type} [Monad m] [LawfulMonad m]

/-- Perform the callbacks of some items. -/
def perform (optionCb : CallbackOption → OptionValue → m Unit) (made : List Call) : m Unit :=
  made.forM fun call => optionCb call.1 call.2

/-! ## Performing items -/

section Items

variable (optionCb : CallbackOption → OptionValue → m Unit) (complain : Complaint → m Unit)

/-- Make the callbacks of some items, and a complaint for each that is not recognized. -/
def performItems : UInt32 → List Item → m Unit
  | _, [] => pure ()
  | count, .positional text :: rest =>
      optionCb (.positional count) (.string text) >>= fun _ => performItems (count + 1) rest
  | count, .option opt value :: rest =>
      optionCb (.option opt) (.string value) >>= fun _ => performItems count rest
  | count, .unrecognized arg :: rest => complain (.unrecognized arg) >>= fun _ => performItems count rest

theorem performItems_append (count : UInt32) (first second : List Item) :
    performItems optionCb complain count (first ++ second) =
      performItems optionCb complain count first >>= fun _ =>
        performItems optionCb complain (count + UInt32.ofNat (positionalCount first)) second := by
  induction first generalizing count with
  | nil => simp [performItems, positionalCount]
  | cons item rest ih =>
    cases item with
    | positional text =>
      have shift : count + 1 + UInt32.ofNat (positionalCount rest) =
          count + UInt32.ofNat (positionalCount (.positional text :: rest)) := by
        rw [positionalCount_cons_positional, UInt32.ofNat_add, UInt32.add_assoc]
        rfl
      simp only [List.cons_append, performItems, ih, shift, bind_assoc]
    | option opt value =>
      simp only [List.cons_append, performItems, ih, bind_assoc]
      rfl
    | unrecognized arg =>
      simp only [List.cons_append, performItems, ih, bind_assoc]
      rfl

/-- Without complaints, performing items is performing their callbacks. -/
theorem performItems_unheard (count : UInt32) (items : List Item) :
    performItems optionCb unheard count items = perform optionCb (calls count items) := by
  induction items generalizing count with
  | nil => rfl
  | cons item rest ih =>
    cases item with
    | positional text =>
      simp only [performItems, calls, ih]
      rfl
    | option opt value =>
      simp only [performItems, calls, ih]
      rfl
    | unrecognized arg => simp only [performItems, calls, ih, unheard, pure_bind]

end Items

/-! ## The loop -/

/-- The loop's locals while `pending` waits for its value. -/
def localsFor (count : UInt32) (pending : Option CommandLineOption) : Locals :=
  ⟨count, pending.isSome, pending⟩

theorem skipped_none (option : PlatformString) (nonempty : option ≠ []) :
    ((option.dropWhile (· == dash)).length == option.length) = !isDashed option := by
  obtain ⟨c, rest, rfl⟩ := List.exists_cons_of_ne_nil nonempty
  by_cases dashed : c = dash
  · have shorter := (List.dropWhile_suffix (l := rest) (· == dash)).length_le
    have fewer : (rest.dropWhile (· == dash)).length ≠ rest.length + 1 := by omega
    simp [isDashed, dashed, fewer]
  · simp [isDashed, dashed]

theorem attachedValue_skip (option : PlatformString) :
    ((option.dropWhile (· == dash)).dropWhile (· != equals)).tail = attachedValue option := by
  have same : (option.dropWhile (· == dash)).dropWhile (· != equals) =
      option.dropWhile (· != equals) := by
    induction option with
    | nil => rfl
    | cons c rest ih =>
      by_cases dashed : c = dash
      · have apart : dash ≠ equals := by decide
        simpa [dashed, apart] using ih
      · simp [dashed]
  rw [same, attachedValue, List.drop_one]

section Loop

variable (targetArch : TargetArchitecture) (options : List CommandLineOption)
  (optionCb : CallbackOption → OptionValue → m Unit) (complain : Complaint → m Unit)

/-- The loop body is a step of the reader: the flag and the optional stay in agreement. -/
theorem loopBody_eq (count : UInt32) (pending : Option CommandLineOption) (option : PlatformString) :
    loopBody targetArch options optionCb complain (localsFor count pending) option =
      performItems optionCb complain count (readArg targetArch options pending option).2 >>= fun _ =>
        pure (some (localsFor
          (count + UInt32.ofNat (positionalCount (readArg targetArch options pending option).2))
          (readArg targetArch options pending option).1)) := by
  by_cases empty : option = []
  · subst empty
    simp [loopBody, readArg, performItems, positionalCount]
  · cases pending with
    | some opt =>
      simp [loopBody, readArg, empty, localsFor, performItems, positionalCount, isPositional]
    | none =>
      have skipped := skipped_none option empty
      cases dashed : isDashed option with
      | false =>
        simp [loopBody, readArg, empty, localsFor, performItems, positionalCount, isPositional, skipped, dashed]
      | true =>
        have found : options.find? (matchingOption targetArch
            ((option.dropWhile (· == dash)).takeWhile (· != equals))) =
            lookup targetArch options (optionName option) := rfl
        cases known : lookup targetArch options (optionName option) with
        | none =>
          simp [loopBody, readArg, readOption, empty, localsFor, performItems, positionalCount, isPositional,
            skipped, dashed, found, known]
        | some opt =>
          by_cases waits : opt.argument = .required ∧ attachedValue option = []
          · simp [loopBody, readArg, readOption, empty, localsFor, performItems, positionalCount, skipped,
              dashed, found, known, attachedValue_skip, waits]
          · have goesOn : (opt.argument == .required && (attachedValue option).isEmpty) = false := by
              simpa using waits
            simp [loopBody, readArg, readOption, empty, localsFor, performItems, positionalCount,
              isPositional, skipped, dashed, found, known, attachedValue_skip, goesOn]

/-- The loop over the first of two parts leaves locals with which it goes on. -/
theorem parseLoop_append (count : UInt32) (pending : Option CommandLineOption)
    (first second : List PlatformString) :
    parseLoop targetArch options optionCb complain (localsFor count pending) (first ++ second) =
      performItems optionCb complain count ((reader targetArch options).run pending first).2 >>= fun _ =>
        parseLoop targetArch options optionCb complain (localsFor
          (count + UInt32.ofNat (positionalCount ((reader targetArch options).run pending first).2))
          ((reader targetArch options).run pending first).1) second := by
  induction first generalizing count pending with
  | nil => simp [performItems, positionalCount]
  | cons option rest ih =>
    have numbered : positionalCount ((readArg targetArch options pending option).2 ++
        ((reader targetArch options).run (readArg targetArch options pending option).1 rest).2) =
        positionalCount (readArg targetArch options pending option).2 +
          positionalCount ((reader targetArch options).run (readArg targetArch options pending option).1 rest).2 :=
      List.countP_append
    rw [List.cons_append, parseLoop, loopBody_eq, bind_assoc]
    simp only [pure_bind, Option.elim_some, ih, Transducer.run_cons]
    change _ = performItems optionCb complain count ((readArg targetArch options pending option).2 ++ _) >>= _
    rw [performItems_append, bind_assoc]
    simp only [UInt32.add_assoc, ← UInt32.ofNat_add, ← numbered]
    rfl

omit [LawfulMonad m] in
theorem loopEnd_localsFor (count : UInt32) (pending : Option CommandLineOption) :
    loopEnd complain (localsFor count pending) =
      pending.elim (pure true) fun opt => complain (.requiresArgument opt) >>= fun _ => pure false := by
  cases pending <;> rfl

/-- Parsing performs the callbacks and the complaints of the items it reads, and complains about an
option that is left waiting. -/
theorem parse_eq_performItems (args : List PlatformString) :
    parse targetArch options optionCb complain args =
      performItems optionCb complain 0 (items targetArch options (args.drop 1)) >>= fun _ =>
        (pending targetArch options (args.drop 1)).elim (pure true) fun opt =>
          complain (.requiresArgument opt) >>= fun _ => pure false := by
  have loop := parseLoop_append targetArch options optionCb complain 0 none (args.drop 1) []
  simp only [List.append_nil, parseLoop, loopEnd_localsFor] at loop
  exact loop

/-- Without complaints, parsing performs the callbacks and then reports whether an option was left
waiting. -/
theorem parseLoop_unheard (count : UInt32) (args : List PlatformString) :
    parseLoop targetArch options optionCb unheard (localsFor count none) args =
      perform optionCb (calls count (items targetArch options args)) >>= fun _ =>
        pure (pending targetArch options args).isNone := by
  have loop := parseLoop_append targetArch options optionCb unheard count none args []
  simp only [List.append_nil, parseLoop, loopEnd_localsFor, performItems_unheard] at loop
  rw [loop, items, pending]
  congr 1
  funext _
  cases ((reader targetArch options).run none args).1 <;> simp [unheard]

end Loop

theorem perform_recordCall (made earlier : List Call) :
    (perform recordCall made).run earlier = ((), earlier ++ made) := by
  induction made generalizing earlier with
  | nil => exact congrArg (Prod.mk ()) (List.append_nil earlier).symm
  | cons call rest ih =>
    change (perform recordCall rest).run (earlier ++ [call]) = _
    rw [ih, List.append_assoc, List.singleton_append]

/-- From a number of positional arguments on, the recorded callbacks are those of the items. -/
theorem parseLoop_recordCall (targetArch : TargetArchitecture) (options : List CommandLineOption)
    (count : UInt32) (args : List PlatformString) :
    (parseLoop targetArch options recordCall unheard { positionalCount := count } args).run [] =
      ((pending targetArch options args).isNone, calls count (items targetArch options args)) := by
  have loop := parseLoop_unheard targetArch options recordCall count args
  simp only [localsFor, Option.isSome_none] at loop
  rw [loop, StateT.run_bind, perform_recordCall]
  rfl

theorem recorded_eq (targetArch : TargetArchitecture) (options : List CommandLineOption)
    (args : List PlatformString) :
    recorded targetArch options args =
      ((pending targetArch options (args.drop 1)).isNone,
        calls 0 (items targetArch options (args.drop 1))) :=
  parseLoop_recordCall targetArch options 0 (args.drop 1)

end GasAdapter.CommandLine
