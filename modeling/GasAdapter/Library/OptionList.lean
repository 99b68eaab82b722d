import GasAdapter.Library.Transducer
import Mathlib.Data.List.Basic

/-! # Command lines of named options

An option is a name with a value. It is written as `name=value` in one argument, or as its bare name
when its value is empty, and is read back from either form, or from a name followed by its value as
the next argument. Only a flag is complete without a value. The value of an option that may be given
several times is often a list in itself, joined by a separator; splitting the joined text at the
separator gives the pieces of every part, in order.
-/

/-- How options are written: what stands between a name and its value, and which names are flags. -/
structure OptionSyntax (α : Type*) [DecidableEq α] where
  equals : α
  isFlag : List α → Bool

namespace OptionSyntax

variable {α : Type*} [DecidableEq α] (syn : OptionSyntax α)

/-- One argument. An empty value adds the bare name. -/
def spell (option : List α × List α) : List α :=
  if option.2.isEmpty then option.1 else option.1 ++ syn.equals :: option.2

/-- The reader's only state is the name that waits for its value. -/
def reader : Transducer (Option (List α)) (List α) (List α × List α) where
  step
    | some name, arg => (none, [(name, arg)])
    | none, arg =>
        if syn.equals ∈ arg then
          (none, [(arg.takeWhile (· != syn.equals), (arg.dropWhile (· != syn.equals)).drop 1)])
        else if syn.isFlag arg then (none, [(arg, [])])
        else (some arg, [])

/-- What an option needs to be read back by itself: it has a value or is a flag. -/
def Complete (option : List α × List α) : Prop :=
  syn.equals ∉ option.1 ∧ (option.2 = [] → syn.isFlag option.1 = true)

instance (option : List α × List α) : Decidable (syn.Complete option) :=
  inferInstanceAs (Decidable (_ ∧ _))

theorem run_spell {option : List α × List α} (complete : syn.Complete option) :
    syn.reader.run none [syn.spell option] = (none, [option]) := by
  obtain ⟨name, value⟩ := option
  obtain ⟨plain, flag⟩ := complete
  rw [Transducer.run_singleton, spell]
  cases value with
  | nil => simp [reader, plain, flag rfl]
  | cons c value =>
    have stays : ∀ d ∈ name, (d != syn.equals) = true := by
      intro d member
      simp only [bne_iff_ne]
      rintro rfl
      exact plain member
    simp [reader, List.takeWhile_append_of_pos stays, List.dropWhile_append_of_pos stays]

/-- A bare name that is no flag takes the next argument, whatever it is. -/
theorem run_bare {name : List α} (plain : syn.equals ∉ name) (valued : syn.isFlag name = false) :
    syn.reader.run none [name] = (some name, []) := by
  rw [Transducer.run_singleton]
  simp [reader, plain, valued]

/-- Complete options are read back as they were written. -/
theorem run_map_spell {options : List (List α × List α)}
    (complete : ∀ option ∈ options, syn.Complete option) :
    syn.reader.run none (options.map syn.spell) = (none, options) := by
  have words := syn.reader.run_flatMap (fun option => [syn.spell option]) id none options
    (fun option member => syn.run_spell (complete option member))
  rwa [List.map_id, ← List.map_eq_flatMap] at words

end OptionSyntax

/-- Splitting joined text at the separator splits every part. -/
theorem List.splitOn_intercalate_flatMap {α : Type*} [BEq α] [LawfulBEq α] (separator : α)
    {parts : List (List α)} (nonempty : parts ≠ []) :
    ([separator].intercalate parts).splitOn separator = parts.flatMap (List.splitOn separator) := by
  induction parts with
  | nil => exact (nonempty rfl).elim
  | cons part rest ih =>
    cases rest with
    | nil => simp
    | cons next rest =>
      rw [List.intercalate_cons_cons, List.append_assoc, List.singleton_append,
        List.splitOn_append_cons_self, ih (by simp)]
      rfl
