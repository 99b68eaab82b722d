import GasAdapter.Library.Transducer
import Mathlib.Data.List.Chain

/-! # Splitting a command line into arguments

The documented rules by which a child reads its one command line as an argument vector: `2m`
backslashes before a quote are `m` backslashes and the quote delimits, `2m + 1` are `m` backslashes
and a literal quote, all other backslashes are literal, and blanks outside quotes separate. The
program name in front has rules of its own: quotes delimit and nothing escapes them.

An argument that is put between quotes with a backslash before every quote and backslash is always
read as one argument, and `readBack` says which: runs of backslashes before a quote or the end come
back as they were, all others come back twice as long.
-/

/-- The special characters. -/
structure ArgvRules (α : Type*) [DecidableEq α] where
  quote : α
  backslash : α
  isBlank : α → Bool
  quote_ne_backslash : quote ≠ backslash
  quote_not_blank : isBlank quote = false
  backslash_not_blank : isBlank backslash = false

namespace ArgvRules

variable {α : Type*} [DecidableEq α] (rules : ArgvRules α)

/-! ## Reading -/

/-- An argument that is being read: its text so far, the backslashes that came last, and whether
blanks are part of it. -/
structure Scan (α : Type*) where
  text : List α
  slashes : ℕ
  quoted : Bool

def slashes (count : ℕ) : List α := List.replicate count rules.backslash

/-- One more character of an argument. -/
def scan (current : Scan α) (c : α) : Option (Scan α) × List (List α) :=
  if c = rules.backslash then (some { current with slashes := current.slashes + 1 }, [])
  else if c = rules.quote then
    if current.slashes % 2 = 1 then
      (some ⟨current.text ++ rules.slashes (current.slashes / 2) ++ [c], 0, current.quoted⟩, [])
    else (some ⟨current.text ++ rules.slashes (current.slashes / 2), 0, !current.quoted⟩, [])
  else if rules.isBlank c && !current.quoted then
    (none, [current.text ++ rules.slashes current.slashes])
  else (some ⟨current.text ++ rules.slashes current.slashes ++ [c], 0, current.quoted⟩, [])

/-- The reader of the arguments; between two of them there is nothing to remember. -/
def reader : Transducer (Option (Scan α)) α (List α) where
  step
    | none, c => if rules.isBlank c then (none, []) else rules.scan ⟨[], 0, false⟩ c
    | some current, c => rules.scan current c

/-- The argument the end of the command line completes. -/
def finish : Option (Scan α) → List (List α)
  | none => []
  | some current => [current.text ++ rules.slashes current.slashes]

/-- All arguments read from a state on. -/
def collect (state : Option (Scan α)) (text : List α) : List (List α) :=
  (rules.reader.run state text).2 ++ rules.finish (rules.reader.run state text).1

/-- What follows the program name. -/
def afterProgram : Bool → List α → List α
  | _, [] => []
  | quoted, c :: rest =>
      if c = rules.quote then afterProgram (!quoted) rest
      else if rules.isBlank c && !quoted then rest
      else afterProgram quoted rest

/-- The arguments of a command line, after the program name. -/
def split (commandLine : List α) : List (List α) :=
  rules.collect none (rules.afterProgram false commandLine)

/-! ## Writing -/

/-- A backslash goes before every quote and backslash. -/
def escape (c : α) : List α := if c = rules.quote ∨ c = rules.backslash then [rules.backslash, c] else [c]

def quoted (arg : List α) : List α := rules.quote :: (arg.flatMap rules.escape ++ [rules.quote])

/-- Characters that may stand without quotes. -/
def Plain (c : α) : Prop := c ≠ rules.quote ∧ c ≠ rules.backslash ∧ rules.isBlank c = false

/-- What a quoted argument is read back as, after `count` backslashes of it. -/
def readBackFrom (count : ℕ) : List α → List α
  | [] => rules.slashes count
  | c :: rest =>
      if c = rules.backslash then readBackFrom (count + 1) rest
      else if c = rules.quote then rules.slashes count ++ c :: readBackFrom 0 rest
      else rules.slashes (2 * count) ++ c :: readBackFrom 0 rest

def readBack (arg : List α) : List α := rules.readBackFrom 0 arg

/-! ## Reading what was written -/

/-- Inside quotes, a backslash run of the argument stands twice as long before the next character. -/
theorem run_escaped (text : List α) (count : ℕ) (arg : List α) :
    rules.reader.run (some ⟨text, 2 * count, true⟩) (arg.flatMap rules.escape ++ [rules.quote]) =
      (some ⟨text ++ rules.readBackFrom count arg, 0, false⟩, []) := by
  induction arg generalizing text count with
  | nil =>
    have even : 2 * count % 2 = 0 := by omega
    have half : 2 * count / 2 = count := by omega
    simp [Transducer.run_singleton, reader, scan, rules.quote_ne_backslash, even, half, readBackFrom]
  | cons c rest ih =>
    rw [List.flatMap_cons, List.append_assoc, Transducer.run_append]
    by_cases slash : c = rules.backslash
    · subst slash
      have read : rules.reader.run (some ⟨text, 2 * count, true⟩) (rules.escape rules.backslash) =
          (some ⟨text, 2 * (count + 1), true⟩, []) := by
        simp [escape, Transducer.run_cons, reader, scan, Nat.mul_add]
      rw [read, ih]
      simp [readBackFrom]
    · by_cases isQuote : c = rules.quote
      · subst isQuote
        have odd : (2 * count + 1) % 2 = 1 := by omega
        have half : (2 * count + 1) / 2 = count := by omega
        have read : rules.reader.run (some ⟨text, 2 * count, true⟩) (rules.escape rules.quote) =
            (some ⟨text ++ rules.slashes count ++ [rules.quote], 2 * 0, true⟩, []) := by
          simp [escape, Transducer.run_cons, reader, scan, slash, odd, half]
        rw [read, ih]
        simp [readBackFrom, slash]
      · have read : rules.reader.run (some ⟨text, 2 * count, true⟩) (rules.escape c) =
            (some ⟨text ++ rules.slashes (2 * count) ++ [c], 2 * 0, true⟩, []) := by
          simp [escape, Transducer.run_cons, reader, scan, slash, isQuote]
        rw [read, ih]
        simp [readBackFrom, slash, isQuote]

/-- A quoted argument is read as one argument. -/
theorem run_quoted (arg : List α) :
    rules.reader.run none (rules.quoted arg) = (some ⟨rules.readBack arg, 0, false⟩, []) := by
  have opened : rules.reader.step none rules.quote = (some ⟨[], 2 * 0, true⟩, []) := by
    simp [reader, scan, rules.quote_not_blank, rules.quote_ne_backslash, slashes]
  rw [quoted, Transducer.run_cons, opened, run_escaped]
  rfl

/-- A plain argument is read as it stands, and `readBack` leaves it alone. -/
theorem run_plain (text : List α) {arg : List α} (plain : ∀ c ∈ arg, rules.Plain c) :
    rules.reader.run (some ⟨text, 0, false⟩) arg = (some ⟨text ++ arg, 0, false⟩, []) := by
  induction arg generalizing text with
  | nil => simp
  | cons c rest ih =>
    obtain ⟨notQuote, notSlash, notBlank⟩ := plain c (List.mem_cons_self ..)
    have read : rules.reader.step (some ⟨text, 0, false⟩) c = (some ⟨text ++ [c], 0, false⟩, []) := by
      simp [reader, scan, notQuote, notSlash, notBlank, slashes]
    rw [Transducer.run_cons, read, ih _ (fun d member => plain d (List.mem_cons_of_mem _ member))]
    simp

theorem readBack_plain {arg : List α} (plain : ∀ c ∈ arg, rules.Plain c) : rules.readBack arg = arg := by
  unfold readBack
  induction arg with
  | nil => rfl
  | cons c rest ih =>
    obtain ⟨notQuote, notSlash, -⟩ := plain c (List.mem_cons_self ..)
    simp [readBackFrom, notQuote, notSlash, slashes, ih fun d member => plain d (List.mem_cons_of_mem _ member)]

theorem run_plain_none {arg : List α} (plain : ∀ c ∈ arg, rules.Plain c) (nonempty : arg ≠ []) :
    rules.reader.run none arg = (some ⟨rules.readBack arg, 0, false⟩, []) := by
  obtain ⟨c, rest, rfl⟩ := List.exists_cons_of_ne_nil nonempty
  obtain ⟨notQuote, notSlash, notBlank⟩ := plain c (List.mem_cons_self ..)
  have read : rules.reader.step none c = (some ⟨[c], 0, false⟩, []) := by
    simp [reader, scan, notQuote, notSlash, notBlank, slashes]
  rw [rules.readBack_plain plain, Transducer.run_cons, read,
    run_plain rules [c] fun d member => plain d (List.mem_cons_of_mem _ member)]
  simp

theorem blank_ordinary {blank : α} (isBlank : rules.isBlank blank = true) :
    blank ≠ rules.quote ∧ blank ≠ rules.backslash := by
  constructor
  · rintro rfl
    rw [rules.quote_not_blank] at isBlank
    cases isBlank
  · rintro rfl
    rw [rules.backslash_not_blank] at isBlank
    cases isBlank

/-- A blank between arguments changes nothing. -/
theorem collect_blank {blank : α} (isBlank : rules.isBlank blank = true) (text : List α) :
    rules.collect none (blank :: text) = rules.collect none text := by
  have idle : rules.reader.step none blank = (none, []) := by simp [reader, isBlank]
  rw [collect, Transducer.run_cons, idle]
  rfl

/-- A blank after an argument completes it. -/
theorem step_blank {blank : α} (isBlank : rules.isBlank blank = true) (text : List α) :
    rules.reader.step (some ⟨text, 0, false⟩) blank = (none, [text]) := by
  obtain ⟨notQuote, notSlash⟩ := rules.blank_ordinary isBlank
  simp [reader, scan, notQuote, notSlash, isBlank, slashes]

/-- A plain word before a blank is an argument, whatever follows. -/
theorem collect_plain {blank : α} (isBlank : rules.isBlank blank = true) {word : List α}
    (plain : ∀ c ∈ word, rules.Plain c) (nonempty : word ≠ []) (rest : List α) :
    rules.collect none (word ++ blank :: rest) = word :: rules.collect none rest := by
  rw [collect, Transducer.run_append, rules.run_plain_none plain nonempty, rules.readBack_plain plain,
    Transducer.run_cons, rules.step_blank isBlank]
  rfl

/-- Arguments that are each read back as one, with a blank in front of each, are all read. -/
theorem collect_words {blank : α} (isBlank : rules.isBlank blank = true) (write : List α → List α)
    (words : List (List α)) (reads : ∀ arg ∈ words,
      rules.reader.run none (write arg) = (some ⟨rules.readBack arg, 0, false⟩, [])) :
    rules.collect none (words.flatMap fun arg => blank :: write arg) = words.map rules.readBack := by
  have ends := rules.step_blank isBlank
  have after (text : List α) : rules.collect (some ⟨text, 0, false⟩)
      (words.flatMap fun arg => blank :: write arg) = text :: words.map rules.readBack := by
    induction words generalizing text with
    | nil => simp [collect, finish, slashes]
    | cons arg rest ih =>
      have tail := ih (fun other member => reads other (List.mem_cons_of_mem _ member)) (rules.readBack arg)
      unfold collect at tail ⊢
      rw [List.flatMap_cons, List.cons_append, Transducer.run_cons, ends, Transducer.run_append,
        reads arg (List.mem_cons_self ..)]
      simp only [List.nil_append, List.cons_append, tail, List.map_cons]
  cases words with
  | nil => rfl
  | cons arg rest =>
    have tail := after []
    rw [List.flatMap_cons, List.cons_append] at tail ⊢
    rw [rules.collect_blank isBlank]
    rw [collect, Transducer.run_cons, ends] at tail
    exact (List.cons.inj tail).2

/-! ## The program name -/

theorem afterProgram_append {name : List α} (noQuote : rules.quote ∉ name) (quoted : Bool)
    (whole : quoted = true ∨ ∀ c ∈ name, rules.isBlank c = false) (rest : List α) :
    rules.afterProgram quoted (name ++ rest) = rules.afterProgram quoted rest := by
  induction name with
  | nil => rfl
  | cons c name ih =>
    have other : c ≠ rules.quote := fun same => noQuote (same ▸ List.mem_cons_self ..)
    have stays : (rules.isBlank c && !quoted) = false := by
      rcases whole with rfl | plain
      · simp
      · simp [plain c (List.mem_cons_self ..)]
    rw [List.cons_append, afterProgram, if_neg other, stays, if_neg (by simp)]
    apply ih
    · exact fun member => noQuote (List.mem_cons_of_mem _ member)
    · exact whole.imp id fun plain d member => plain d (List.mem_cons_of_mem _ member)

/-- A quoted program name ends at its closing quote, as long as it has none of its own. -/
theorem afterProgram_quoted {name : List α} (noQuote : rules.quote ∉ name) (rest : List α) :
    rules.afterProgram false (rules.quoted name ++ rest) = rules.afterProgram false rest := by
  have escaped : rules.quote ∉ name.flatMap rules.escape := by
    intro member
    obtain ⟨c, inside, written⟩ := List.mem_flatMap.mp member
    have other : c ≠ rules.quote := fun same => noQuote (same ▸ inside)
    unfold escape at written
    split at written
    · simp [rules.quote_ne_backslash, other.symm] at written
    · simp [other.symm] at written
  rw [quoted, List.cons_append, afterProgram, if_pos rfl, List.append_assoc, Bool.not_false,
    afterProgram_append rules escaped _ (.inl rfl), List.singleton_append, afterProgram, if_pos rfl]
  rfl

/-- The arguments after a program name are those whose words follow it. -/
theorem collect_afterProgram {blank : α} (isBlank : rules.isBlank blank = true) (write : List α → List α)
    (words : List (List α)) :
    rules.collect none (rules.afterProgram false (words.flatMap fun arg => blank :: write arg)) =
      rules.collect none (words.flatMap fun arg => blank :: write arg) := by
  cases words with
  | nil => rfl
  | cons arg rest =>
    rw [List.flatMap_cons, List.cons_append, rules.collect_blank isBlank, afterProgram,
      if_neg (rules.blank_ordinary isBlank).1, isBlank]
    rfl

/-! ## When nothing is changed -/

/-- What may follow a character directly: a backslash stays single only before a quote, and a run of
them only up to a quote or the end. -/
def Keeps (c next : α) : Prop := c = rules.backslash → next = rules.backslash ∨ next = rules.quote

theorem isChain_slashes (count : ℕ) (rest : List α) :
    (rules.slashes count ++ rest).IsChain rules.Keeps ↔
      (count ≠ 0 → ∀ next ∈ rest.head?, next = rules.backslash ∨ next = rules.quote) ∧
        rest.IsChain rules.Keeps := by
  have run : (rules.slashes count).IsChain rules.Keeps :=
    List.isChain_replicate_of_rel count fun _ => .inl rfl
  rw [List.isChain_append]
  constructor
  · rintro ⟨-, later, joined⟩
    refine ⟨fun some next head => ?_, later⟩
    exact joined rules.backslash (by simp [slashes, List.getLast?_replicate, some]) next head rfl
  · rintro ⟨joined, later⟩
    refine ⟨run, later, ?_⟩
    intro c last next head isSlash
    refine joined ?_ next head
    rintro rfl
    simp [slashes] at last

/-- The arguments that are read back unchanged: every backslash is directly followed by a backslash,
a quote or the end. -/
theorem readBackFrom_eq_iff (count : ℕ) (arg : List α) :
    rules.readBackFrom count arg = rules.slashes count ++ arg ↔
      (rules.slashes count ++ arg).IsChain rules.Keeps := by
  induction arg generalizing count with
  | nil =>
    rw [isChain_slashes]
    simp [readBackFrom]
  | cons c rest ih =>
    by_cases slash : c = rules.backslash
    · subst slash
      have longer : rules.slashes count ++ rules.backslash :: rest = rules.slashes (count + 1) ++ rest := by
        simp [slashes, List.replicate_succ']
      rw [readBackFrom, if_pos rfl, longer]
      exact ih (count + 1)
    · have tail := ih 0
      simp only [slashes, List.replicate_zero, List.nil_append] at tail
      have headless : (c :: rest).IsChain rules.Keeps ↔ rest.IsChain rules.Keeps := by
        rw [List.isChain_cons]
        exact and_iff_right fun next head isSlash => (slash isSlash).elim
      rw [isChain_slashes, headless, readBackFrom, if_neg slash]
      by_cases isQuote : c = rules.quote
      · subst isQuote
        rw [if_pos rfl, List.append_cancel_left_eq, List.cons_inj_right, tail]
        simp
      · rw [if_neg isQuote]
        cases count with
        | zero => simp [slashes, tail]
        | succ count =>
          constructor
          · intro same
            -- the left side still has a backslash where the right side has `c`
            have position := congrArg (fun text : List α => text[count + 1]?) same
            have inside : count + 1 < 2 * (count + 1) := by omega
            simp [slashes, List.getElem?_append, inside] at position
            exact (slash position.symm).elim
          · rintro ⟨joined, -⟩
            rcases joined (Nat.succ_ne_zero count) c rfl with isSlash | isQuote'
            · exact (slash isSlash).elim
            · exact (isQuote isQuote').elim

theorem readBack_eq_iff (arg : List α) : rules.readBack arg = arg ↔ arg.IsChain rules.Keeps :=
  rules.readBackFrom_eq_iff 0 arg

/-- Text without backslashes in front is read back as it stands. -/
theorem readBack_append {front : List α} (noSlash : rules.backslash ∉ front) (rest : List α) :
    rules.readBack (front ++ rest) = front ++ rules.readBack rest := by
  induction front with
  | nil => rfl
  | cons c front ih =>
    have other : c ≠ rules.backslash := fun same => noSlash (same ▸ List.mem_cons_self ..)
    have tail := ih fun member => noSlash (List.mem_cons_of_mem _ member)
    rw [readBack] at tail
    simp [readBack, readBackFrom, other, slashes, tail]

theorem head?_readBackFrom {count : ℕ} (positive : 0 < count) (arg : List α) :
    (rules.readBackFrom count arg).head? = some rules.backslash := by
  have starts {length : ℕ} (full : 0 < length) (text : List α) :
      (rules.slashes length ++ text).head? = some rules.backslash := by
    simp [slashes, List.head?_append, List.head?_replicate, full.ne']
  induction arg generalizing count with
  | nil =>
    have whole := starts positive []
    rwa [List.append_nil] at whole
  | cons c rest ih =>
    unfold readBackFrom
    split
    · exact ih (Nat.succ_pos count)
    · split
      · exact starts positive _
      · exact starts (Nat.mul_pos Nat.two_pos positive) _

/-- What is read back begins as the argument did. -/
theorem head?_readBack (arg : List α) : (rules.readBack arg).head? = arg.head? := by
  cases arg with
  | nil => rfl
  | cons c rest =>
    unfold readBack readBackFrom
    split
    · next slash => rw [rules.head?_readBackFrom Nat.one_pos, slash, List.head?_cons]
    · split <;> simp [slashes]

theorem readBack_noSlash {text : List α} (noSlash : rules.backslash ∉ text) : rules.readBack text = text := by
  have read := rules.readBack_append noSlash []
  rwa [List.append_nil, show rules.readBack [] = [] from rfl, List.append_nil] at read

/-- Only backslashes are added. -/
theorem mem_readBackFrom {count : ℕ} {arg : List α} {c : α} (member : c ∈ rules.readBackFrom count arg) :
    c = rules.backslash ∨ c ∈ arg := by
  have added {length : ℕ} (inside : c ∈ rules.slashes length) : c = rules.backslash :=
    List.eq_of_mem_replicate inside
  induction arg generalizing count with
  | nil => exact .inl (added member)
  | cons d rest ih =>
    rw [List.mem_cons, ← or_assoc, or_right_comm]
    unfold readBackFrom at member
    split at member
    · exact .inl (ih member)
    · split at member <;>
      · rcases List.mem_append.mp member with front | back
        · exact .inl (.inl (added front))
        · rcases List.mem_cons.mp back with same | later
          · exact .inr same
          · exact .inl (ih later)

theorem mem_readBack {arg : List α} {c : α} (other : c ≠ rules.backslash) (member : c ∈ rules.readBack arg) :
    c ∈ arg :=
  (rules.mem_readBackFrom member).resolve_left other

/-! ## Nothing is confused -/

/-- The quoted argument that is read back as a text, after `count` backslashes of the text: a run of
backslashes before any other character was half as long. -/
def originalFrom (count : ℕ) : List α → List α
  | [] => rules.slashes count
  | c :: rest =>
      if c = rules.backslash then originalFrom (count + 1) rest
      else if c = rules.quote then rules.slashes count ++ c :: originalFrom 0 rest
      else rules.slashes (count / 2) ++ c :: originalFrom 0 rest

private theorem originalFrom_slashes (count more : ℕ) (text : List α) :
    rules.originalFrom count (rules.slashes more ++ text) = rules.originalFrom (count + more) text := by
  induction more generalizing count with
  | zero => rfl
  | succ more ih =>
    have step := ih (count + 1)
    rw [slashes, List.replicate_succ, List.cons_append, originalFrom, if_pos rfl]
    rw [slashes] at step
    rw [step, Nat.add_right_comm, Nat.add_assoc]

theorem originalFrom_readBackFrom (count : ℕ) (arg : List α) :
    rules.originalFrom 0 (rules.readBackFrom count arg) = rules.slashes count ++ arg := by
  induction arg generalizing count with
  | nil =>
    have read := rules.originalFrom_slashes 0 count []
    rw [List.append_nil, Nat.zero_add] at read
    rw [readBackFrom, read, originalFrom, List.append_nil]
  | cons c rest ih =>
    have tail := ih 0
    rw [slashes, List.replicate_zero, List.nil_append] at tail
    by_cases slash : c = rules.backslash
    · subst slash
      rw [readBackFrom, if_pos rfl, ih]
      simp [slashes, List.replicate_succ']
    · rw [readBackFrom, if_neg slash]
      by_cases isQuote : c = rules.quote
      · rw [if_pos isQuote, originalFrom_slashes, Nat.zero_add, originalFrom, if_neg slash, if_pos isQuote, tail]
      · have half : 2 * count / 2 = count := by omega
        rw [if_neg isQuote, originalFrom_slashes, Nat.zero_add, originalFrom, if_neg slash, if_neg isQuote,
          tail, half]

/-- Different arguments are read back as different texts. -/
theorem readBack_injective : Function.Injective rules.readBack := by
  have undone : Function.LeftInverse (rules.originalFrom 0) rules.readBack := by
    intro arg
    exact rules.originalFrom_readBackFrom 0 arg
  exact undone.injective

end ArgvRules
