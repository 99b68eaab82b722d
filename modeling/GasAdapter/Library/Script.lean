import Mathlib.Data.List.Basic

/-! # Scripts of commands that stop at the first failure

A script is a list of actions: start a command, stop with a code, or throw. Carrying it out starts the
commands in order until one returns a non-zero code, which is then the result; running it only keeps the
commands that were started. How a command ends
may depend on every command started before it. The rules below say which commands have been
started, and what a returned code tells about them.
-/

/-- One action of a script over commands `π` and exceptions `ε`. -/
inductive ScriptAction (π ε : Type) where
  | start (command : π)
  | stop (code : Int)
  | fail (e : ε)
deriving DecidableEq, Repr

namespace Script

section CarryOut

variable {π ε σ : Type} (start : π → σ → Int × σ) (stop : Int → σ → σ)

/-- Carry out the actions on some state, given what starting a command and stopping do to it. -/
def carryOut : List (ScriptAction π ε) → EStateM ε σ Int
  | [], state => .ok 0 state
  | .start command :: rest, state =>
      let ended := start command state
      if ended.1 = 0 then carryOut rest ended.2 else .ok ended.1 ended.2
  | .stop code :: _, state => .ok code (stop code state)
  | .fail e :: _, state => .error e state

theorem carryOut_start (command : π) (rest : List (ScriptAction π ε)) (state : σ) :
    carryOut start stop (.start command :: rest) state =
      if (start command state).1 = 0 then carryOut start stop rest (start command state).2
      else .ok (start command state).1 (start command state).2 := rfl

end CarryOut

variable {π ε : Type} (exitCode : List π → π → Int)

/-- Run the actions; the state is the list of commands started so far. -/
def run : List (ScriptAction π ε) → EStateM ε (List π) Int :=
  carryOut (fun command started => (exitCode started command, started ++ [command])) fun _ started => started

@[simp] theorem run_nil (started : List π) :
    (run exitCode [] started : EStateM.Result ε (List π) Int) = .ok 0 started := rfl

@[simp] theorem run_stop (code : Int) (rest : List (ScriptAction π ε)) (started : List π) :
    run exitCode (.stop code :: rest) started = .ok code started := rfl

@[simp] theorem run_fail (e : ε) (rest : List (ScriptAction π ε)) (started : List π) :
    run exitCode (.fail e :: rest) started = .error e started := rfl

theorem run_start (command : π) (rest : List (ScriptAction π ε)) (started : List π) :
    run exitCode (.start command :: rest) started =
      if exitCode started command = 0 then run exitCode rest (started ++ [command])
      else .ok (exitCode started command) (started ++ [command]) := rfl

/-- A script of one command returns that command's code. -/
theorem run_singleton (command : π) (started : List π) :
    (run exitCode [.start command] started : EStateM.Result ε (List π) Int) =
      .ok (exitCode started command) (started ++ [command]) := by
  rw [run_start]
  split
  · next zero => rw [run_nil, zero]
  · rfl

/-- Commands alone never throw. -/
theorem run_returns (commands started : List π) :
    ∃ code final, (run exitCode (commands.map .start) started : EStateM.Result ε (List π) Int) =
      .ok code final := by
  induction commands generalizing started with
  | nil => exact ⟨0, started, rfl⟩
  | cons command rest ih =>
    rw [List.map_cons, run_start]
    split
    · exact ih (started ++ [command])
    · exact ⟨_, _, rfl⟩

/-- Commands that have been started stay started. -/
theorem run_extends {actions : List (ScriptAction π ε)} {started final : List π} {code : Int}
    (result : run exitCode actions started = .ok code final) : started <+: final := by
  induction actions generalizing started with
  | nil => cases result; exact List.prefix_rfl
  | cons action rest ih =>
    cases action with
    | stop code => cases result; exact List.prefix_rfl
    | fail e => cases result
    | start command =>
      rw [run_start] at result
      split at result
      · exact (List.prefix_append started [command]).trans (ih result)
      · cases result
        exact List.prefix_append ..

/-- A script whose first action starts a command leaves a trace. -/
theorem run_start_ne {command : π} {rest : List (ScriptAction π ε)} {started : List π} {code : Int} :
    run exitCode (.start command :: rest) started ≠ .ok code started := by
  intro result
  rw [run_start] at result
  split at result
  · have longer := (run_extends exitCode result).length_le
    rw [List.length_append, List.length_singleton] at longer
    omega
  · injection result with _ same
    have lengths := congrArg List.length same
    rw [List.length_append, List.length_singleton] at lengths
    omega

/-- The commands that have been started at the end, also when the script throws. -/
def startedAfter (result : EStateM.Result ε (List π) Int) : List π :=
  match result with
  | .ok _ started => started
  | .error _ started => started

/-- What a script starts is what it starts with. -/
theorem run_started (actions : List (ScriptAction π ε)) (started : List π) :
    ∃ commands, startedAfter (run exitCode actions started) = started ++ commands ∧
      commands.map .start <+: actions := by
  induction actions generalizing started with
  | nil => exact ⟨[], (List.append_nil _).symm, List.prefix_rfl⟩
  | cons action rest ih =>
    cases action with
    | stop code => exact ⟨[], (List.append_nil _).symm, List.nil_prefix⟩
    | fail e => exact ⟨[], (List.append_nil _).symm, List.nil_prefix⟩
    | start command =>
      rw [run_start]
      split
      · obtain ⟨commands, final, front⟩ := ih (started ++ [command])
        refine ⟨command :: commands, ?_, List.cons_prefix_cons.mpr ⟨rfl, front⟩⟩
        rw [final, List.append_assoc, List.singleton_append]
      · exact ⟨[command], rfl, List.cons_prefix_cons.mpr ⟨rfl, List.nil_prefix⟩⟩

/-- Commands in front of a script are in front of the list its actions stand for. -/
theorem prefix_of_forall₂ {actions : List (ScriptAction π ε)} {planned commands : List π}
    (agree : List.Forall₂ (fun action command => ∀ other, action = .start other → other = command)
      actions planned)
    (front : commands.map .start <+: actions) : commands <+: planned := by
  induction agree generalizing commands with
  | nil =>
    obtain rfl := List.map_eq_nil_iff.mp (List.prefix_nil.mp front)
    exact List.nil_prefix
  | cons same later ih =>
    cases commands with
    | nil => exact List.nil_prefix
    | cons command commands =>
      obtain ⟨first, rest⟩ := List.cons_prefix_cons.mp front
      exact List.cons_prefix_cons.mpr ⟨same command first.symm, ih rest⟩

/-- A script whose first action starts a command starts it. -/
theorem mem_run_start (command : π) (rest : List (ScriptAction π ε)) (started : List π) :
    command ∈ startedAfter (run exitCode (.start command :: rest) started) := by
  rw [run_start]
  split
  · obtain ⟨commands, final, -⟩ := run_started exitCode rest (started ++ [command])
    rw [final]
    simp
  · simp [startedAfter]

/-- Every command of the list returns 0, each after the ones before it. -/
def Succeed (started commands : List π) : Prop :=
  ∀ before command after, commands = before ++ command :: after →
    exitCode (started ++ before) command = 0

theorem succeed_nil (started : List π) : Succeed exitCode started [] := by
  intro before command after same
  simp at same

theorem succeed_cons {started rest : List π} {command : π} :
    Succeed exitCode started (command :: rest) ↔
      exitCode started command = 0 ∧ Succeed exitCode (started ++ [command]) rest := by
  constructor
  · intro all
    refine ⟨by simpa using all [] command rest rfl, ?_⟩
    intro before other after same
    simpa using all (command :: before) other after (by rw [same, List.cons_append])
  · rintro ⟨first, later⟩ before other after same
    cases before with
    | nil =>
      obtain ⟨rfl, rfl⟩ := List.cons.inj same
      simpa using first
    | cons head before =>
      obtain ⟨rfl, rfl⟩ := List.cons.inj same
      simpa using later before other after rfl

/-- Commands that all return 0 are simply done, and the script goes on. -/
theorem run_append_of_succeed {commands : List π} (rest : List (ScriptAction π ε)) {started : List π}
    (all : Succeed exitCode started commands) :
    run exitCode (commands.map .start ++ rest) started = run exitCode rest (started ++ commands) := by
  induction commands generalizing started with
  | nil => simp
  | cons command commands ih =>
    obtain ⟨first, later⟩ := (succeed_cons exitCode).mp all
    rw [List.map_cons, List.cons_append, run_start, if_pos first, ih later, List.append_assoc,
      List.singleton_append]

/-- The script stops at the first command that fails, and returns its code. -/
theorem run_append_of_fails {before after : List π} {command : π} (rest : List (ScriptAction π ε))
    {started : List π} (all : Succeed exitCode started before)
    (fails : exitCode (started ++ before) command ≠ 0) :
    run exitCode ((before ++ command :: after).map .start ++ rest) started =
      .ok (exitCode (started ++ before) command) (started ++ before ++ [command]) := by
  rw [List.map_append, List.append_assoc, run_append_of_succeed exitCode _ all, List.map_cons,
    List.cons_append, run_start, if_neg fails]

/-- A script that returns 0 did all its commands successfully, unless it was told to stop with 0. -/
theorem succeed_of_run_eq_zero {actions : List (ScriptAction π ε)} {started final : List π}
    (result : run exitCode actions started = .ok 0 final)
    (goesOn : ∀ code, .stop code ∈ actions → code ≠ 0) :
    ∃ commands, actions = commands.map .start ∧ final = started ++ commands ∧
      Succeed exitCode started commands := by
  induction actions generalizing started with
  | nil =>
    cases result
    exact ⟨[], rfl, (List.append_nil _).symm, succeed_nil exitCode _⟩
  | cons action rest ih =>
    cases action with
    | start command =>
      rw [run_start] at result
      split at result
      · next first =>
        obtain ⟨commands, rfl, rfl, later⟩ :=
          ih result (fun code member => goesOn code (List.mem_cons_of_mem _ member))
        exact ⟨command :: commands, rfl, by simp, (succeed_cons exitCode).mpr ⟨first, later⟩⟩
      · next fails =>
        injection result with zero
        exact (fails zero).elim
    | stop code =>
      cases result
      exact (goesOn 0 (List.mem_cons_self ..) rfl).elim
    | fail e => cases result

/-- A script that throws has done all commands in front of the exception successfully. -/
theorem succeed_of_run_eq_error {actions : List (ScriptAction π ε)} {started final : List π} {e : ε}
    (result : run exitCode actions started = .error e final) :
    ∃ commands rest, actions = commands.map .start ++ .fail e :: rest ∧ final = started ++ commands ∧
      Succeed exitCode started commands := by
  induction actions generalizing started with
  | nil => cases result
  | cons action rest ih =>
    cases action with
    | start command =>
      rw [run_start] at result
      split at result
      · next first =>
        obtain ⟨commands, later, rfl, rfl, succeed⟩ := ih result
        exact ⟨command :: commands, later, rfl, by simp, (succeed_cons exitCode).mpr ⟨first, succeed⟩⟩
      · cases result
    | stop code => cases result
    | fail e =>
      cases result
      exact ⟨[], rest, rfl, (List.append_nil _).symm, succeed_nil exitCode _⟩

/-! ## Dry runs -/

/-- Every command returns 0. -/
def allSucceed : List π → π → Int := fun _ _ => 0

@[simp] theorem run_start_allSucceed (command : π) (rest : List (ScriptAction π ε)) (started : List π) :
    run allSucceed (.start command :: rest) started = run allSucceed rest (started ++ [command]) := rfl

/-- The actions a run can reach. Stopping with 0 is like reaching the end. -/
def reachable : List (ScriptAction π ε) → List (ScriptAction π ε)
  | [] => []
  | .start command :: rest => .start command :: reachable rest
  | .stop code :: _ => if code = 0 then [] else [.stop code]
  | .fail e :: _ => [.fail e]

theorem run_reachable (actions : List (ScriptAction π ε)) (started : List π) :
    run exitCode (reachable actions) started = run exitCode actions started := by
  induction actions generalizing started with
  | nil => rfl
  | cons action rest ih =>
    cases action with
    | start command => rw [reachable, run_start, run_start, ih]
    | stop code =>
      rw [reachable]
      split
      · next zero => rw [zero, run_nil, run_stop]
      · rw [run_stop, run_stop]
    | fail e => rw [reachable, run_fail, run_fail]

/-- The actions that lead to a result when every command returns 0. -/
def leadingTo : EStateM.Result ε (List π) Int → List (ScriptAction π ε)
  | .ok code started => started.map .start ++ if code = 0 then [] else [.stop code]
  | .error e started => started.map .start ++ [.fail e]

/-- A dry run shows everything that can be reached. -/
theorem leadingTo_run (actions : List (ScriptAction π ε)) (started : List π) :
    leadingTo (run allSucceed actions started) = started.map .start ++ reachable actions := by
  induction actions generalizing started with
  | nil => rfl
  | cons action rest ih =>
    cases action with
    | start command =>
      rw [run_start_allSucceed, ih, reachable, List.map_append, List.append_assoc]
      rfl
    | stop code => rfl
    | fail e => rfl

/-- Scripts with the same dry run have the same runs. -/
theorem run_eq_of_dry {first second : List (ScriptAction π ε)} {started : List π}
    (dry : run allSucceed first started = run allSucceed second started) (other : List π) :
    run exitCode first other = run exitCode second other := by
  have same : reachable first = reachable second := by
    have shown := congrArg leadingTo dry
    rw [leadingTo_run, leadingTo_run] at shown
    exact List.append_cancel_left shown
  rw [← run_reachable, same, run_reachable]

/-- Commands that have been started are never taken back. -/
theorem started_kept (actions : List (ScriptAction π ε)) (started : List π) :
    started <+: startedAfter (run exitCode actions started) := by
  obtain ⟨commands, final, -⟩ := run_started exitCode actions started
  rw [final]
  exact List.prefix_append ..

theorem succeed_dropLast {started later : List π} {command : π} (fine : exitCode started command = 0) :
    Succeed exitCode started (command :: later).dropLast ↔
      Succeed exitCode (started ++ [command]) later.dropLast := by
  cases later with
  | nil => exact iff_of_true (succeed_nil exitCode started) (succeed_nil exitCode (started ++ [command]))
  | cons next later =>
    rw [List.dropLast_cons_cons, succeed_cons]
    exact and_iff_right fine

/-- What is started is what a dry run starts, as long as everything before it returns 0. -/
theorem prefix_startedAfter_iff (actions : List (ScriptAction π ε)) (started commands : List π) :
    started ++ commands <+: startedAfter (run exitCode actions started) ↔
      started ++ commands <+: startedAfter (run allSucceed actions started) ∧
        Succeed exitCode started commands.dropLast := by
  -- nothing is added when the script ends at once
  have ends (started commands : List π) : started ++ commands <+: started ↔
      started ++ commands <+: started ∧ Succeed exitCode started commands.dropLast := by
    constructor
    · intro shorter
      have lengths := shorter.length_le
      rw [List.length_append] at lengths
      obtain rfl := List.length_eq_zero_iff.mp (by omega : commands.length = 0)
      exact ⟨shorter, succeed_nil exitCode started⟩
    · exact And.left
  induction actions generalizing started commands with
  | nil => exact ends started commands
  | cons action rest ih =>
    cases action with
    | stop code => exact ends started commands
    | fail e => exact ends started commands
    | start command =>
      -- whatever comes next is the command
      have first (ends : List π → π → Int) {next : π} {later : List π}
          (front : started ++ next :: later <+: startedAfter (run ends rest (started ++ [command]))) :
          next = command := by
        have both := List.prefix_of_prefix_length_le (started_kept ends rest (started ++ [command])) front
          (by simp)
        rw [List.prefix_append_right_inj] at both
        exact (List.cons_prefix_cons.mp both).1.symm
      rw [run_start, run_start_allSucceed]
      cases commands with
      | nil =>
        rw [List.append_nil]
        refine iff_of_true ?_ ⟨?_, succeed_nil exitCode started⟩
        · split
          · exact (List.prefix_append started [command]).trans (started_kept ..)
          · exact List.prefix_append started [command]
        · exact (List.prefix_append started [command]).trans (started_kept ..)
      | cons next later =>
        split
        · next fine =>
          by_cases same : next = command
          · subst same
            rw [succeed_dropLast exitCode fine]
            have shifted := ih (started ++ [next]) later
            rwa [List.append_assoc, List.singleton_append] at shifted
          · exact iff_of_false (fun front => same (first _ front)) (fun both => same (first _ both.1))
        · next fails =>
          constructor
          · intro front
            have only := (List.prefix_append_right_inj started).mp front
            obtain ⟨rfl, none⟩ := List.cons_prefix_cons.mp only
            obtain rfl := List.prefix_nil.mp none
            exact ⟨front.trans (started_kept ..), succeed_nil exitCode started⟩
          · rintro ⟨front, all⟩
            obtain rfl := first _ front
            cases later with
            | nil => exact List.prefix_rfl
            | cons second later =>
              rw [List.dropLast_cons_cons] at all
              exact (fails ((succeed_cons exitCode).mp all).1).elim

/-! ## Telling what a run does -/

section Narrate

variable {ω β : Type} (tells : List π → π → List ω) (tellStop : Int → List ω)

/-- What is told while a script runs: something about every command, and about a stop. -/
def narrate : List (ScriptAction π ε) → List π → List ω
  | [], _ => []
  | .start command :: rest, started =>
      tells started command ++
        if exitCode started command = 0 then narrate rest (started ++ [command]) else []
  | .stop code :: _, _ => tellStop code
  | .fail _ :: _, _ => []

/-- The outcome of a run, with everything told of it. -/
def told (result : EStateM.Result ε (List π) Int) (all : List ω) : EStateM.Result ε (List ω) Int :=
  match result with
  | .ok code _ => .ok code all
  | .error e _ => .error e all

/-- Carrying a script out on what has been told is to run it and to tell of it. -/
theorem carryOut_eq_told (seen : List ω → List π)
    (kept : ∀ all command, seen (all ++ tells (seen all) command) = seen all ++ [command])
    (actions : List (ScriptAction π ε)) (all : List ω) :
    carryOut (fun command all => (exitCode (seen all) command, all ++ tells (seen all) command))
        (fun code all => all ++ tellStop code) actions all =
      told (run exitCode actions (seen all)) (all ++ narrate exitCode tells tellStop actions (seen all)) := by
  induction actions generalizing all with
  | nil => rw [narrate, List.append_nil]; rfl
  | cons action rest ih =>
    cases action with
    | stop code => rfl
    | fail e => rw [narrate, List.append_nil]; rfl
    | start command =>
      rw [carryOut_start, run_start, narrate]
      split
      · rw [ih, kept, List.append_assoc]
      · rw [List.append_nil]
        rfl

/-- What only depends on the commands is told of those that are started, in their order. -/
theorem filterMap_narrate (hear : ω → Option β) (about : π → List β)
    (heard : ∀ started command, (tells started command).filterMap hear = about command)
    (silent : ∀ code, (tellStop code).filterMap hear = []) (actions : List (ScriptAction π ε))
    (started : List π) :
    ∃ commands, startedAfter (run exitCode actions started) = started ++ commands ∧
      (narrate exitCode tells tellStop actions started).filterMap hear = commands.flatMap about := by
  induction actions generalizing started with
  | nil => exact ⟨[], (List.append_nil _).symm, rfl⟩
  | cons action rest ih =>
    cases action with
    | stop code => exact ⟨[], (List.append_nil _).symm, silent code⟩
    | fail e => exact ⟨[], (List.append_nil _).symm, rfl⟩
    | start command =>
      rw [run_start, narrate]
      split
      · obtain ⟨commands, final, told⟩ := ih (started ++ [command])
        refine ⟨command :: commands, ?_, ?_⟩
        · rw [final, List.append_assoc, List.singleton_append]
        · rw [List.filterMap_append, heard, told, List.flatMap_cons]
      · refine ⟨[command], rfl, ?_⟩
        rw [List.append_nil, heard, List.flatMap_singleton]

/-- When nothing is told of a command that returns 0, nothing is told of a run that does not fail. -/
theorem filterMap_narrate_of_unfailed (hear : ω → Option β)
    (quiet : ∀ started command, exitCode started command = 0 → (tells started command).filterMap hear = [])
    {actions : List (ScriptAction π ε)} (goesOn : .stop 0 ∉ actions) {started : List π}
    (unfailed : ∀ code final, run exitCode actions started = .ok code final → code = 0) :
    (narrate exitCode tells tellStop actions started).filterMap hear = [] := by
  induction actions generalizing started with
  | nil => rfl
  | cons action rest ih =>
    cases action with
    | stop code =>
      obtain rfl := unfailed code started rfl
      exact (goesOn (List.mem_cons_self ..)).elim
    | fail e => rfl
    | start command =>
      simp only [run_start] at unfailed
      split at unfailed
      · next fine =>
        rw [narrate, if_pos fine, List.filterMap_append, quiet started command fine]
        exact ih (fun later => goesOn (List.mem_cons_of_mem _ later)) unfailed
      · next fails => exact (fails (unfailed _ _ rfl)).elim

/-- A failed run of which nothing is told ends with a command of which nothing is told. -/
theorem ends_untold (hear : ω → Option β)
    (loudStop : ∀ code, code ≠ 0 → (tellStop code).filterMap hear ≠ [])
    {actions : List (ScriptAction π ε)} {started final : List π} {code : Int} (failed : code ≠ 0)
    (result : run exitCode actions started = .ok code final)
    (untold : (narrate exitCode tells tellStop actions started).filterMap hear = []) :
    ∃ front command, final = front ++ [command] ∧ .start command ∈ actions ∧
      exitCode front command = code ∧ (tells front command).filterMap hear = [] := by
  induction actions generalizing started with
  | nil =>
    cases result
    exact (failed rfl).elim
  | cons action rest ih =>
    cases action with
    | stop code =>
      cases result
      exact (loudStop _ failed untold).elim
    | fail e => cases result
    | start command =>
      rw [run_start] at result
      rw [narrate, List.filterMap_append, List.append_eq_nil_iff] at untold
      split at result
      · next fine =>
        rw [if_pos fine] at untold
        obtain ⟨front, last, shape, member, ends, silent⟩ := ih result untold.2
        exact ⟨front, last, shape, List.mem_cons_of_mem _ member, ends, silent⟩
      · cases result
        exact ⟨started, command, rfl, List.mem_cons_self .., rfl, untold.1⟩

end Narrate

/-! ## Codes -/

/-- A returned code is 0, that of a stop or that of a command. -/
theorem code_of_run {Allowed : Int → Prop} (zero : Allowed 0)
    (commands : ∀ started command, Allowed (exitCode started command)) {actions : List (ScriptAction π ε)}
    (stops : ∀ code, .stop code ∈ actions → Allowed code) {started final : List π} {code : Int}
    (result : run exitCode actions started = .ok code final) : Allowed code := by
  induction actions generalizing started with
  | nil =>
    cases result
    exact zero
  | cons action rest ih =>
    cases action with
    | stop code =>
      cases result
      exact stops _ (List.mem_cons_self ..)
    | fail e => cases result
    | start command =>
      rw [run_start] at result
      split at result
      · exact ih (fun code member => stops code (List.mem_cons_of_mem _ member)) result
      · cases result
        exact commands started command

/-- A command that does not return 0 is the last one, and its code is returned. -/
theorem failed_ends {actions : List (ScriptAction π ε)} {started front rest : List π} {command : π} {code : Int}
    (result : run exitCode actions started = .ok code (started ++ (front ++ command :: rest)))
    (failed : exitCode (started ++ front) command ≠ 0) :
    rest = [] ∧ code = exitCode (started ++ front) command := by
  induction actions generalizing started front with
  | nil => simp at result
  | cons action actions ih =>
    cases action with
    | stop code => simp at result
    | fail e => cases result
    | start next =>
      rw [run_start] at result
      split at result
      · next fine =>
        have extends' := run_extends exitCode result
        rw [List.prefix_append_right_inj] at extends'
        cases front with
        | nil =>
          obtain ⟨rfl, -⟩ := List.cons_prefix_cons.mp extends'
          rw [List.append_nil] at failed
          exact (failed fine).elim
        | cons head front =>
          obtain ⟨rfl, -⟩ := List.cons_prefix_cons.mp extends'
          rw [show started ++ next :: front = (started ++ [next]) ++ front by simp] at failed ⊢
          exact ih (by simpa using result) failed
      · injection result with same final
        rw [List.append_cancel_left_eq] at final
        cases front with
        | nil =>
          obtain ⟨rfl, rfl⟩ := List.cons_eq_cons.mp final
          exact ⟨rfl, by rw [List.append_nil]; exact same.symm⟩
        | cons head front => simp at final

end Script
