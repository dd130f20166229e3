import ByteMachine.Proofs.Console.ExecuteLine

/-! What a line does to the machine. A line that fails has no effect, and of those that succeed only
executing and setting have one. Each drops the changes that it may have left pending, so nothing is
ever pending between lines, and what an executed word reports is what it changed. -/

namespace ByteMachine

/-- Nothing is pending. -/
def Store.Settled (s : Store) : Prop := s.registers.pending = [] ∧ s.memory.pending = []

theorem Store.settled_settle (s : Store) : s.settle.Settled :=
  ⟨Memory.pending_settle _, Memory.pending_settle _⟩

/-- What is pending in the registers is no part of the contents. -/
theorem Store.value_settle_registers (s : Store) :
    Store.value { s with registers := s.registers.settle } = s.value := by
  funext place
  cases place with
  | register index => exact Memory.read_settle _ _
  | memory address => rfl

theorem Store.value_settle_memory (s : Store) :
    Store.value { s with memory := s.memory.settle } = s.value := by
  funext place
  cases place with
  | register index => rfl
  | memory address => exact Memory.read_settle _ _

namespace Console

open Contents

/-- The words of a line that sets a cell, whether or not there is such a cell. -/
inductive SetsCell : List String → Place → Byte → Prop
  | register {i v : String} {index : Nat} {value : Byte} (hi : Arguments.sizeForm i = .ok index)
    (hv : Arguments.byteForm v = .ok value) :
    SetsCell ["set", "r", i, v] (.register index) value
  | memory {a v : String} {address value : Byte} (ha : Arguments.byteForm a = .ok address)
    (hv : Arguments.byteForm v = .ok value) :
    SetsCell ["set", "m", a, v] (.memory address.toNat) value

variable {verbosity : Verbosity} {line : String} {m : Machine}

theorem setsCell_register_iff {words : List String} {index : Nat} {value : Byte} :
    SetsCell words (.register index) value ↔ Command.Written words (.setRegister index value) := by
  constructor
  · intro h
    cases h with
    | register hi hv => exact .setRegister hi hv
  · intro h
    cases h with
    | setRegister hi hv => exact .register hi hv

theorem setsCell_memory_iff {words : List String} {address : Nat} {value : Byte} :
    SetsCell words (.memory address) value ↔
      ∃ byte : Byte, byte.toNat = address ∧ Command.Written words (.setMemory byte value) := by
  constructor
  · intro h
    cases h with
    | memory ha hv => exact ⟨_, rfl, .setMemory ha hv⟩
  · rintro ⟨byte, rfl, h⟩
    cases h with
    | setMemory ha hv => exact .memory ha hv

/-! ### One line -/

theorem respond_of_written {command : Command} (h : Command.Written (Text.words line) command) :
    respond verbosity line m = command.perform verbosity m := by
  rw [respond, Command.ofLine_eq_ok_iff.2 h]

/-- A line that succeeds was read as a command. -/
theorem exists_written_of_ok {flow : Flow} (h : (respond verbosity line m).result = .ok flow) :
    ∃ command, Command.Written (Text.words line) command ∧
      respond verbosity line m = command.perform verbosity m := by
  cases hread : Command.ofLine line with
  | error e =>
    rw [respond, hread] at h
    cases h
  | ok command =>
    have hwritten := Command.ofLine_eq_ok_iff.1 hread
    exact ⟨command, hwritten, respond_of_written hwritten⟩

theorem respond_of_setsCell {place : Place} {value : Byte}
    (h : SetsCell (Text.words line) place value) (hplace : place.Exists) :
    let response := respond verbosity line m
    response.result = .ok .goOn ∧ response.output = "" ∧
      response.machine.value = Function.update m.value place value ∧
      response.machine.pc = m.pc ∧ response.machine.ir = m.ir := by
  rw [← Store.value_put_eq m.toStore value hplace]
  cases place with
  | register index =>
    have hlt : index < 16 := hplace
    rw [respond_of_written (setsCell_register_iff.1 h), Command.perform, Command.assignRegister,
      if_pos hlt]
    exact ⟨rfl, rfl, Store.value_settle_registers (m.toStore.setRegister index value), rfl, rfl⟩
  | memory address =>
    obtain ⟨byte, rfl, hwritten⟩ := setsCell_memory_iff.1 h
    rw [respond_of_written hwritten, Command.perform, Command.assignMemory]
    exact ⟨rfl, rfl, Store.value_settle_memory (m.toStore.setMemory byte.toNat value), rfl, rfl⟩

/-- A line that fails has no effect; it fails while it is read, or it names a register that there is
not. -/
theorem respond_of_error {e : CommandError} (h : (respond verbosity line m).result = .error e) :
    (respond verbosity line m).machine = m ∧ (respond verbosity line m).output = "" ∧
      (Command.ofLine line = .error e ∨ ∃ index value,
        Command.Written (Text.words line) (.setRegister index value) ∧ 16 ≤ index ∧
          e = .outOfRange index 16) := by
  cases hread : Command.ofLine line with
  | error e' =>
    rw [respond, hread] at h ⊢
    cases h
    exact ⟨rfl, rfl, .inl rfl⟩
  | ok command =>
    have hwritten := Command.ofLine_eq_ok_iff.1 hread
    rw [respond_of_written hwritten] at h ⊢
    -- of the commands that are read, setting a register alone can still fail
    cases command with
    | setRegister index value =>
      rw [Command.perform, Command.assignRegister] at h ⊢
      split at h
      · cases h
      · rename_i hle
        cases h
        rw [if_neg hle]
        exact ⟨rfl, rfl, .inr ⟨index, value, hwritten, Nat.not_lt.1 hle, rfl⟩⟩
    | _ => cases h

/-- Only executing and setting have an effect. -/
theorem machine_of_ok {flow : Flow} (h : (respond verbosity line m).result = .ok flow)
    (hx : (Text.words line).head? ≠ some "x") (hset : (Text.words line).head? ≠ some "set") :
    (respond verbosity line m).machine = m := by
  obtain ⟨command, hwritten, hrespond⟩ := exists_written_of_ok h
  rw [hrespond]
  generalize Text.words line = words at hwritten hx hset
  cases hwritten with
  | execute h => exact absurd rfl hx
  | setRegister hi hv => exact absurd rfl hset
  | setMemory ha hv => exact absurd rfl hset
  | _ => rfl

/-- A line that begins as one that sets a cell succeeds only if it names one. -/
theorem exists_setsCell_of_ok {flow : Flow} (h : (respond verbosity line m).result = .ok flow)
    (hset : (Text.words line).head? = some "set") :
    ∃ place value, SetsCell (Text.words line) place value ∧ place.Exists := by
  obtain ⟨command, hwritten, hrespond⟩ := exists_written_of_ok h
  rw [hrespond] at h
  generalize Text.words line = words at hwritten hset
  cases hwritten with
  | @setRegister i v index value hi hv =>
    rw [Command.perform, Command.assignRegister] at h
    split at h
    · rename_i hlt
      exact ⟨_, _, .register hi hv, hlt⟩
    · cases h
  | @setMemory a v address value ha hv => exact ⟨_, _, .memory ha hv, address.toNat_lt⟩
  | _ => simp at hset

theorem result_eq_outOfRange_iff {index size : Nat} :
    (respond verbosity line m).result = .error (.outOfRange index size) ↔
      size = 16 ∧ 16 ≤ index ∧ ∃ value, SetsCell (Text.words line) (.register index) value := by
  constructor
  · intro h
    obtain ⟨-, -, hread | ⟨index', value, hwritten, hle, he⟩⟩ := respond_of_error h
    · exact absurd hread (Command.ofLine_ne_outOfRange line index size)
    · cases he
      exact ⟨rfl, hle, value, setsCell_register_iff.2 hwritten⟩
  · rintro ⟨rfl, hle, value, hsets⟩
    rw [respond_of_written (setsCell_register_iff.1 hsets), Command.perform, Command.assignRegister,
      if_neg (Nat.not_lt.2 hle)]
    rfl

/-! ### Lines in turn -/

/-- A line leaves nothing pending if nothing was. -/
theorem settled_respond (h : m.toStore.Settled) (verbosity : Verbosity) (line : String) :
    (respond verbosity line m).machine.toStore.Settled := by
  rw [respond]
  cases Command.ofLine line with
  | error e => exact h
  | ok command =>
    cases command with
    | execute word => exact Store.settled_settle _
    | setRegister index value =>
      dsimp only [Command.perform, Command.assignRegister]
      split
      · exact ⟨Memory.pending_settle _, h.2⟩
      · exact h
    | setMemory address value => exact ⟨h.1, Memory.pending_settle _⟩
    | _ => exact h

theorem machineAfter_cons (m : Machine) (response : Response) (responses : List Response) :
    machineAfter m (response :: responses) = machineAfter response.machine responses := by
  unfold machineAfter
  rw [List.getLast?_cons]
  cases responses.getLast? <;> rfl

theorem settled_machineAfter (h : m.toStore.Settled) (verbosity : Verbosity)
    (lines : List String) :
    (machineAfter m (responses verbosity lines m)).toStore.Settled := by
  induction lines generalizing m with
  | nil => exact h
  | cons line lines ih =>
    rw [responses, machineAfter_cons]
    exact ih (settled_respond h verbosity line)

/-- With nothing pending before it, a line that executes a word reports what this changes. -/
theorem output_of_execute (h : m.toStore.Settled) {word : Word}
    (hwritten : Command.Written (Text.words line) (.execute word)) :
    (respond verbosity line m).output =
      String.join ((difference m.value (respond verbosity line m).machine.value).map
        Program.changeLine) ++ if Word.halts word then "Halted\n" else "" := by
  have htracks : m.toStore.Tracks m.value := Store.tracks_of_pending_eq_nil h.1 h.2
  have hafter : (m.execute verbosity word).state.toStore.Tracks m.value :=
    htracks.apply verbosity word
  have hvalue : (m.execute verbosity word).state.settle.value =
      (m.execute verbosity word).state.value := Store.value_settle _
  have hhalts := Word.halts_iff verbosity word m
  rw [respond_of_written hwritten, Command.perform, Command.executeWord]
  dsimp only
  rw [hvalue, Program.changes_eq, hafter.pendingChanges_eq]
  cases hstatus : (m.execute verbosity word).status with
  | halted => rw [if_pos (hhalts.2 hstatus)]
  | normal =>
    have hgoesOn : ¬ Word.halts word = true := by
      rw [hhalts, hstatus]
      decide
    rw [if_neg hgoesOn]

/-! ### Every line, and every sequence of lines -/

/-- A line has all of its effect or none. A line that sets a cell changes that cell and nothing
else, and lines leave nothing pending that was not pending before. -/
theorem respond_is_atomic (verbosity : Verbosity) :
    (∀ (line : String) (m : Machine),
      let words := Text.words line
      let response := respond verbosity line m
      (∀ e, response.result = .error e → response.machine = m ∧ response.output = "") ∧
      (∀ flow, response.result = .ok flow → words.head? ≠ some "x" → words.head? ≠ some "set" →
        response.machine = m) ∧
      (∀ flow, response.result = .ok flow → words.head? = some "set" →
        ∃ place value, SetsCell words place value ∧ place.Exists) ∧
      (∀ place value, SetsCell words place value → place.Exists →
        response.result = .ok .goOn ∧ response.output = "" ∧
          response.machine.value = Function.update m.value place value ∧
          response.machine.pc = m.pc ∧ response.machine.ir = m.ir) ∧
      ∀ index size, response.result = .error (.outOfRange index size) ↔
        size = 16 ∧ 16 ≤ index ∧ ∃ value, SetsCell words (.register index) value) ∧
    ∀ m : Machine, m.toStore.Settled → ∀ lines : List String,
      let before := machineAfter m (responses verbosity lines m)
      before.toStore.Settled ∧
      ∀ (line token : String) (word : Word), Text.words line = ["x", token] →
        Token.parse token = .ok word →
        let response := respond verbosity line before
        response.result = .ok .goOn ∧
        response.output =
          String.join ((difference before.value response.machine.value).map Program.changeLine) ++
            if Word.halts word then "Halted\n" else "" := by
  refine ⟨fun line m => ⟨fun e h => ?_, fun flow => machine_of_ok, fun flow => exists_setsCell_of_ok,
    fun place value => respond_of_setsCell, fun index size => result_eq_outOfRange_iff⟩,
    fun m hm lines => ?_⟩
  · obtain ⟨hmachine, houtput, -⟩ := respond_of_error h
    exact ⟨hmachine, houtput⟩
  · intro before
    have hbefore : before.toStore.Settled := settled_machineAfter hm verbosity lines
    refine ⟨hbefore, fun line token word hwords htoken => ?_⟩
    have hwritten : Command.Written (Text.words line) (.execute word) := by
      rw [hwords]
      exact .execute htoken
    refine ⟨?_, output_of_execute hbefore hwritten⟩
    rw [respond_of_written hwritten]
    rfl

/-- One register is set and the next one is found missing; the word after that reports the register
that it sets itself. -/
theorem respond_reports_own_change :
    let lines := ["set r 3 2A", "set r 16 01"]
    let before := machineAfter .zero (responses none lines .zero)
    let refused := respond none "set r 16 01" .zero
    let loaded := respond none "x 2A05" before
    (respond none "r" .zero).machine = .zero ∧
    (∃ place value, SetsCell (Text.words "set r 3 2A") place value ∧ place.Exists) ∧
    (respond none "set r 3 2A" .zero).machine.value =
      Function.update Machine.zero.value (.register 3) 0x2A ∧
    refused.result = .error (.outOfRange 16 16) ∧ refused.machine = .zero ∧
    before.toStore.Settled ∧ loaded.output = "R10: 00 -> 05\n" ∧
    loaded.output =
      String.join ((difference before.value loaded.machine.value).map Program.changeLine) := by
  intro lines before refused loaded
  have hsets : SetsCell (Text.words "set r 3 2A") (.register 3) 0x2A := by
    rw [show Text.words "set r 3 2A" = ["set", "r", "3", "2A"] by decide +kernel]
    exact .register (by decide +kernel) (by decide +kernel)
  have hmissing : SetsCell (Text.words "set r 16 01") (.register 16) 0x01 := by
    rw [show Text.words "set r 16 01" = ["set", "r", "16", "01"] by decide +kernel]
    exact .register (by decide +kernel) (by decide +kernel)
  have hzero : Machine.zero.toStore.Settled := ⟨by decide +kernel, by decide +kernel⟩
  obtain ⟨hline, hlines⟩ := respond_is_atomic none
  obtain ⟨-, hother, -, -, -⟩ := hline "r" .zero
  obtain ⟨-, -, hset, hcell, -⟩ := hline "set r 3 2A" .zero
  obtain ⟨hfailed, -, -, -, hrange⟩ := hline "set r 16 01" .zero
  obtain ⟨hresult, -, hvalue, -, -⟩ := hcell _ _ hsets (show 3 < 16 by decide)
  obtain ⟨hbefore, hexecute⟩ := hlines .zero hzero lines
  obtain ⟨-, houtput⟩ := hexecute "x 2A05" "2A05" 0x2A05 (by decide +kernel) (by decide +kernel)
  have hrefused : refused.result = .error (.outOfRange 16 16) :=
    (hrange 16 16).2 ⟨rfl, le_refl _, _, hmissing⟩
  refine ⟨hother .goOn (by decide +kernel) (by decide +kernel) (by decide +kernel),
    hset .goOn hresult (by decide +kernel), hvalue, hrefused, (hfailed _ hrefused).1, hbefore,
    by decide +kernel, houtput.trans ?_⟩
  rw [if_neg (by decide), String.append_empty]

end Console

end ByteMachine
