import ByteMachine.Proofs.Console.Arguments

/-! The numbers of arguments. Every read takes one word and counts as one, be it optional, past the
last word, or one that fails. So reads in turn meet the words of a line in turn, and the number that
an error names is the place of the word in its line. -/

namespace ByteMachine.Console.Arguments

/-- A way to read an argument. Instruction words, bytes and integers have forms of theirs. -/
inductive Read : Type → Type 1
  | next : Read String
  | nextOptional : Read (Option String)
  | nextAs {α : Type} (form : Form α) : Read α
  | nextAsOptional {α : Type} (form : Form α) : Read (Option α)

namespace Read

variable {α : Type}

def reader : Read α → Reader α
  | .next => Arguments.next
  | .nextOptional => Arguments.nextOptional
  | .nextAs form => Arguments.nextAs form
  | .nextAsOptional form => Arguments.nextAsOptional form

/-- What the read makes of a word. -/
def ofWord : Read α → Form α
  | .next => .ok
  | .nextOptional => fun word => .ok (some word)
  | .nextAs form => form
  | .nextAsOptional form => fun word => (form word).map some

/-- What the read with the number `index` gives where there is no word. -/
def ofNone (index : Nat) : Read α → Except CommandError α
  | .next | .nextAs _ => .error (.missingArgument index)
  | .nextOptional | .nextAsOptional _ => .ok none

/-- What the read with the number `index` gives. -/
def answer (index : Nat) (read : Read α) : Option String → Except CommandError α
  | some word => (read.ofWord word).mapError (.badArgument index)
  | none => read.ofNone index

end Read

/-- Reads in turn, and goes on after errors. -/
def readAll : List ((α : Type) × Read α) → Arguments →
    List ((α : Type) × Except CommandError α) × Arguments
  | [], arguments => ([], arguments)
  | ⟨α, read⟩ :: reads, arguments =>
    let taken := read.reader arguments
    let others := readAll reads taken.2
    (⟨α, taken.1⟩ :: others.1, others.2)

/-! ### One read -/

theorem interpret_eq {α : Type} (form : Form α) (word : String) (arguments : Arguments) :
    interpret form word arguments =
      ((form word).mapError (.badArgument arguments.reads), arguments) := by
  rw [interpret]
  cases form word <;> rfl

/-- A read takes a word, if there is one, and counts. -/
theorem reader_eq {α : Type} (read : Read α) (arguments : Arguments) :
    read.reader arguments =
      (read.answer (arguments.reads + 1) arguments.remaining.head?,
        ⟨arguments.remaining.tail, arguments.reads + 1⟩) := by
  obtain ⟨remaining, reads⟩ := arguments
  cases remaining with
  | nil => cases read <;> rfl
  | cons word words =>
    cases read with
    | next => rfl
    | nextOptional => rfl
    | nextAs form => exact interpret_eq form word ⟨words, reads + 1⟩
    | nextAsOptional form =>
      have hread : (Read.nextAsOptional form).reader ⟨word :: words, reads⟩ =
          (interpret form word >>= fun value => pure (some value)) ⟨words, reads + 1⟩ := rfl
      have hword := interpret_eq form word ⟨words, reads + 1⟩
      rw [hread]
      dsimp only [List.head?_cons, List.tail_cons, Read.answer, Read.ofWord]
      cases hform : form word with
      | ok value =>
        rw [hform] at hword
        exact bind_of_ok hword
      | error fault =>
        rw [hform] at hword
        exact bind_of_error hword

/-- Words that are left are counted. -/
theorem result_finish (arguments : Arguments) :
    (finish arguments).1 =
      if arguments.remaining = [] then .ok ()
      else .error (.unusedArguments arguments.remaining.length) := by
  obtain ⟨remaining, reads⟩ := arguments
  cases remaining <;> rfl

/-! ### Reads in turn -/

/-- After `n` reads the first `n` words are gone, and the reads that follow go on from there. -/
theorem readAll_drop (words : List String) (reads : List ((α : Type) × Read α)) (n : Nat) :
    readAll reads ⟨words.drop n, n⟩ =
      (reads.mapIdx fun i read => ⟨read.1, read.2.answer (n + i + 1) words[n + i]?⟩,
        ⟨words.drop (n + reads.length), n + reads.length⟩) := by
  induction reads generalizing n with
  | nil => rfl
  | cons read reads ih =>
    obtain ⟨α, read⟩ := read
    rw [readAll, reader_eq]
    dsimp only
    rw [List.head?_drop, List.tail_drop, ih (n + 1), List.mapIdx_cons, List.length_cons]
    simp only [Nat.add_assoc, Nat.add_comm 1, Nat.add_zero]

/-- The read with a number takes the word with that number, whatever the reads before it were and
came to. Where the words have ended it is missing, or left out if it is optional. In the end the
words that no read has taken are counted. -/
theorem reads_meet_words_in_turn (line : String) (reads : List ((α : Type) × Read α)) :
    let words := Text.words line
    let taken := readAll reads (.ofLine line)
    taken.1 = (reads.mapIdx fun n read => ⟨read.1, read.2.answer (n + 1) words[n]?⟩) ∧
    (finish taken.2).1 =
      if words.length ≤ reads.length then .ok ()
      else .error (.unusedArguments (words.length - reads.length)) := by
  intro words taken
  have htaken : taken = _ := readAll_drop words reads 0
  simp only [Nat.zero_add] at htaken
  rw [htaken]
  refine ⟨rfl, ?_⟩
  rw [result_finish, List.length_drop]
  simp only [List.drop_eq_nil_iff]

/-- A word that fails, a byte that fails after it, and a read for which no word is left. -/
example : (readAll [⟨_, .nextAs wordForm⟩, ⟨_, .nextAsOptional byteForm⟩, ⟨_, .next⟩]
      (.ofLine "2A g")).1 =
    [⟨Word, .error (.badArgument 1 (.token (.wrongLength 2)))⟩,
      ⟨Option Byte, .error (.badArgument 2 (.integer .badDigit))⟩,
      ⟨String, .error (.missingArgument 3)⟩] := rfl

end ByteMachine.Console.Arguments
