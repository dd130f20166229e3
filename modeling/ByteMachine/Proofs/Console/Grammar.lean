import ByteMachine.Console.Command
import ByteMachine.Proofs.Console.Arguments

/-! The grammar of console lines. A line reads as a command exactly if its words are those that the
command is written with: all of them, in their forms, and no more, but for the commands that do not
read on. -/

namespace ByteMachine.Console

open Arguments

/-- The words that a command is written with. -/
inductive Command.Written : List String → Command → Prop
  | nothing : Written [] .nothing
  | execute {token : String} {word : Word} (h : Token.parse token = .ok word) :
    Written ["x", token] (.execute word)
  | showMemory : Written ["m"] (.showMemory 0 256)
  | showMemoryFrom {a : String} {start : Byte} (ha : byteForm a = .ok start) :
    Written ["m", a] (.showMemory start.toNat 256)
  | showMemoryPart {a n : String} {start : Byte} {length : Nat} (ha : byteForm a = .ok start)
    (hn : sizeForm n = .ok length) : Written ["m", a, n] (.showMemory start.toNat length)
  | showRegisters : Written ["r"] .showRegisters
  | setRegister {i v : String} {register : Nat} {value : Byte} (hi : sizeForm i = .ok register)
    (hv : byteForm v = .ok value) : Written ["set", "r", i, v] (.setRegister register value)
  | setMemory {a v : String} {address value : Byte} (ha : byteForm a = .ok address)
    (hv : byteForm v = .ok value) : Written ["set", "m", a, v] (.setMemory address value)
  | showMeaning {token : String} {word : Word} (h : Token.parse token = .ok word) :
    Written ["dis", token] (.showMeaning word)
  | shortHelp (rest : List String) : Written ("h" :: rest) .help
  | help (rest : List String) : Written ("help" :: rest) .help
  | quit (rest : List String) : Written ("q" :: rest) .quit

/-- The words of a command that is given every argument that it takes. -/
inductive Command.Complete : List String → Command → Prop
  | execute {token : String} {word : Word} (h : Token.parse token = .ok word) :
    Complete ["x", token] (.execute word)
  | showMemory {a n : String} {start : Byte} {length : Nat} (ha : byteForm a = .ok start)
    (hn : sizeForm n = .ok length) : Complete ["m", a, n] (.showMemory start.toNat length)
  | showRegisters : Complete ["r"] .showRegisters
  | setRegister {i v : String} {register : Nat} {value : Byte} (hi : sizeForm i = .ok register)
    (hv : byteForm v = .ok value) : Complete ["set", "r", i, v] (.setRegister register value)
  | setMemory {a v : String} {address value : Byte} (ha : byteForm a = .ok address)
    (hv : byteForm v = .ok value) : Complete ["set", "m", a, v] (.setMemory address value)
  | showMeaning {token : String} {word : Word} (h : Token.parse token = .ok word) :
    Complete ["dis", token] (.showMeaning word)
  | shortHelp : Complete ["h"] .help
  | help : Complete ["help"] .help
  | quit : Complete ["q"] .quit

/-- The command does not read its line to the end. -/
def Command.ignoresSurplus (command : Command) : Prop := command = .help ∨ command = .quit

namespace Command

theorem wordForm_eq_ok_iff {token : String} {word : Word} :
    wordForm token = .ok word ↔ Token.parse token = .ok word := by
  rw [wordForm]
  cases Token.parse token with
  | ok w => exact ⟨fun h => by cases h; rfl, fun h => by cases h; rfl⟩
  | error e => exact iff_of_false (fun h => by cases h) (fun h => by cases h)

variable {command : Command} {words : List String} {reads : Nat} {after : Arguments}

/-! ### What is read is written so -/

theorem written_of_ofTarget {target : String}
    (h : ofTarget target ⟨words, reads⟩ = (.ok command, after)) :
    Written ("set" :: target :: words) command := by
  unfold ofTarget at h
  split at h
  · simp only [bind_eq_ok_iff, nextAs_eq_ok_iff, finish_eq_ok_iff, pure_eq_ok_iff] at h
    obtain ⟨register, mid, ⟨i, hi, rfl, -⟩, value, mid', ⟨v, hv, hmid, -⟩, -, -, ⟨hnil, -⟩, rfl, -⟩ :=
      h
    rw [hmid, hnil]
    exact .setRegister hi hv
  · simp only [bind_eq_ok_iff, nextAs_eq_ok_iff, finish_eq_ok_iff, pure_eq_ok_iff] at h
    obtain ⟨address, mid, ⟨a, ha, rfl, -⟩, value, mid', ⟨v, hv, hmid, -⟩, -, -, ⟨hnil, -⟩, rfl, -⟩ :=
      h
    rw [hmid, hnil]
    exact .setMemory ha hv
  · cases h

theorem written_of_ofName {name : String}
    (h : ofName name ⟨words, reads⟩ = (.ok command, after)) : Written (name :: words) command := by
  unfold ofName at h
  split at h
  · simp only [bind_eq_ok_iff, nextAs_eq_ok_iff, finish_eq_ok_iff, pure_eq_ok_iff] at h
    obtain ⟨word, mid, ⟨token, htoken, rfl, -⟩, -, -, ⟨hnil, -⟩, rfl, -⟩ := h
    rw [hnil]
    exact .execute (wordForm_eq_ok_iff.1 htoken)
  · simp only [bind_eq_ok_iff, nextAsOptional_eq_ok_iff, nextAs_eq_ok_iff, finish_eq_ok_iff,
      pure_eq_ok_iff] at h
    obtain ⟨start?, mid, hstart, length?, mid', hlength, -, -, ⟨hnil, -⟩, rfl, -⟩ := h
    rcases hstart with ⟨rfl, rfl, rfl⟩ | ⟨start, rfl, a, ha, rfl, -⟩
    · rcases hlength with ⟨rfl, -, -⟩ | ⟨length, -, n, -, hmid, -⟩
      · exact .showMemory
      · cases hmid
    · rcases hlength with ⟨rfl, hmid, -⟩ | ⟨length, rfl, n, hn, hmid, -⟩
      · rw [hmid]
        exact .showMemoryFrom ha
      · rw [hmid, hnil]
        exact .showMemoryPart ha hn
  · simp only [bind_eq_ok_iff, finish_eq_ok_iff, pure_eq_ok_iff] at h
    obtain ⟨-, -, ⟨rfl, -⟩, rfl, -⟩ := h
    exact .showRegisters
  · simp only [bind_eq_ok_iff, next_eq_ok_iff] at h
    obtain ⟨target, ⟨rest, reads'⟩, ⟨rfl, -⟩, h⟩ := h
    exact written_of_ofTarget h
  · simp only [bind_eq_ok_iff, nextAs_eq_ok_iff, finish_eq_ok_iff, pure_eq_ok_iff] at h
    obtain ⟨word, mid, ⟨token, htoken, rfl, -⟩, -, -, ⟨hnil, -⟩, rfl, -⟩ := h
    rw [hnil]
    exact .showMeaning (wordForm_eq_ok_iff.1 htoken)
  · obtain ⟨rfl, -⟩ := pure_eq_ok_iff.1 h
    exact .shortHelp words
  · obtain ⟨rfl, -⟩ := pure_eq_ok_iff.1 h
    exact .help words
  · obtain ⟨rfl, -⟩ := pure_eq_ok_iff.1 h
    exact .quit words
  · cases h

/-! ### What is written so is read -/

/-- The arguments are read from their words, and what is left has to be nothing. -/
theorem Complete.reader_append (h : Complete words command) (hcommand : ¬ command.ignoresSurplus)
    (surplus : List String) :
    reader ⟨words ++ surplus, 0⟩ =
      (finish >>= fun _ => pure command : Reader Command) ⟨surplus, words.length⟩ := by
  have hname (name : String) (rest : List String) :
      reader ⟨name :: rest, 0⟩ = ofName name ⟨rest, 1⟩ := rfl
  have htarget (target : String) (rest : List String) :
      reader ⟨"set" :: target :: rest, 0⟩ = ofTarget target ⟨rest, 2⟩ := rfl
  cases h with
  | @execute token word h =>
    rw [List.cons_append, hname, ofName]
    exact bind_of_ok (nextAs_of_ok (wordForm_eq_ok_iff.2 h) surplus 1)
  | @showMemory a n start length ha hn =>
    rw [List.cons_append, hname, ofName]
    exact (bind_of_ok (nextAsOptional_of_ok ha (n :: surplus) 1)).trans
      (bind_of_ok (nextAsOptional_of_ok hn surplus 2))
  | showRegisters => rfl
  | @setRegister i v register value hi hv =>
    rw [List.cons_append, List.cons_append, htarget, ofTarget]
    exact (bind_of_ok (nextAs_of_ok hi (v :: surplus) 2)).trans
      (bind_of_ok (nextAs_of_ok hv surplus 3))
  | @setMemory a v address value ha hv =>
    rw [List.cons_append, List.cons_append, htarget, ofTarget]
    exact (bind_of_ok (nextAs_of_ok ha (v :: surplus) 2)).trans
      (bind_of_ok (nextAs_of_ok hv surplus 3))
  | @showMeaning token word h =>
    rw [List.cons_append, hname, ofName]
    exact bind_of_ok (nextAs_of_ok (wordForm_eq_ok_iff.2 h) surplus 1)
  | shortHelp => exact absurd (.inl rfl) hcommand
  | help => exact absurd (.inl rfl) hcommand
  | quit => exact absurd (.inr rfl) hcommand

theorem Complete.exists_reader (h : Complete words command) (hcommand : ¬ command.ignoresSurplus) :
    ∃ after, reader ⟨words, 0⟩ = (.ok command, after) := by
  have hread := h.reader_append hcommand []
  rw [List.append_nil] at hread
  exact ⟨_, hread⟩

theorem reader_of_written (h : Written words command) :
    ∃ after, reader ⟨words, 0⟩ = (.ok command, after) := by
  cases h with
  | nothing => exact ⟨_, rfl⟩
  | execute h => exact Complete.exists_reader (.execute h) (by simp [ignoresSurplus])
  | showMemory => exact ⟨_, rfl⟩
  | @showMemoryFrom a start ha =>
    have hname : reader ⟨["m", a], 0⟩ = ofName "m" ⟨[a], 1⟩ := rfl
    rw [hname, ofName, bind_of_ok (nextAsOptional_of_ok ha [] 1)]
    exact ⟨_, rfl⟩
  | showMemoryPart ha hn =>
    exact Complete.exists_reader (.showMemory ha hn) (by simp [ignoresSurplus])
  | showRegisters => exact Complete.exists_reader .showRegisters (by simp [ignoresSurplus])
  | setRegister hi hv =>
    exact Complete.exists_reader (.setRegister hi hv) (by simp [ignoresSurplus])
  | setMemory ha hv => exact Complete.exists_reader (.setMemory ha hv) (by simp [ignoresSurplus])
  | showMeaning h => exact Complete.exists_reader (.showMeaning h) (by simp [ignoresSurplus])
  | shortHelp rest => exact ⟨_, rfl⟩
  | help rest => exact ⟨_, rfl⟩
  | quit rest => exact ⟨_, rfl⟩

/-- A line reads as the command that its words are written for, and as no other. -/
theorem ofLine_eq_ok_iff {line : String} {command : Command} :
    ofLine line = .ok command ↔ Written (Text.words line) command := by
  rw [ofLine, Arguments.ofLine]
  constructor
  · intro h
    cases hread : reader ⟨Text.words line, 0⟩ with
    | mk result after =>
      rw [hread] at h
      obtain rfl : result = .ok command := h
      cases hwords : Text.words line with
      | nil =>
        rw [hwords] at hread
        cases hread
        exact .nothing
      | cons name words =>
        rw [hwords] at hread
        exact written_of_ofName hread
  · intro h
    obtain ⟨after, hread⟩ := reader_of_written h
    rw [hread]

/-! ### What is not read -/

theorem noRangeCheck_ofTarget (target : String) : NoRangeCheck (ofTarget target) := by
  unfold ofTarget
  split
  · exact (noRangeCheck_nextAs _).bind fun _ => (noRangeCheck_nextAs _).bind fun _ =>
      noRangeCheck_finish.bind fun _ => noRangeCheck_pure _
  · exact (noRangeCheck_nextAs _).bind fun _ => (noRangeCheck_nextAs _).bind fun _ =>
      noRangeCheck_finish.bind fun _ => noRangeCheck_pure _
  · exact noRangeCheck_unknownCommand _

theorem noRangeCheck_ofName (name : String) : NoRangeCheck (ofName name) := by
  unfold ofName
  split
  · exact (noRangeCheck_nextAs _).bind fun _ => noRangeCheck_finish.bind fun _ =>
      noRangeCheck_pure _
  · exact (noRangeCheck_nextAsOptional _).bind fun _ => (noRangeCheck_nextAsOptional _).bind fun _ =>
      noRangeCheck_finish.bind fun _ => noRangeCheck_pure _
  · exact noRangeCheck_finish.bind fun _ => noRangeCheck_pure _
  · exact noRangeCheck_next.bind noRangeCheck_ofTarget
  · exact (noRangeCheck_nextAs _).bind fun _ => noRangeCheck_finish.bind fun _ =>
      noRangeCheck_pure _
  · exact noRangeCheck_pure _
  · exact noRangeCheck_pure _
  · exact noRangeCheck_pure _
  · exact noRangeCheck_unknownCommand _

theorem ofLine_ne_outOfRange (line : String) (index size : Nat) :
    ofLine line ≠ .error (.outOfRange index size) := by
  rw [ofLine, Arguments.ofLine]
  cases Text.words line with
  | nil => exact noRangeCheck_pure Command.nothing ⟨[], 1⟩ index size
  | cons name words => exact noRangeCheck_ofName name ⟨words, 1⟩ index size

end Command

end ByteMachine.Console
