import ByteMachine.Proofs.CommandLine.Options
import ByteMachine.Proofs.Console.Session
import ByteMachine.Proofs.Program.Correction

/-! A run of the emulator by its parts. What a part prints is put after what was printed before it,
and the machine and the input go from one part to the next. Corrections and the console share the
input by lines: the first lines are replies, the next ones are for the console, and the last ones
are left. -/

namespace ByteMachine.CommandLine.Emulate

variable {files : Files}

/-! ### The start -/

/-- What the image of a run holds, which is nothing without one. -/
inductive Provides (files : Files) : Option String → Bytes → Prop
  | nothing : Provides files none []
  | file {path : String} {image : Bytes} (hfile : files path = .ok image) :
    Provides files (some path) image

/-- The machine holds the image from address zero of its memory on and zero in all other cells and
registers, and nothing is pending. -/
structure Preloads (image : Bytes) (start : Machine) : Prop where
  fits : image.length ≤ 256
  memory : ∀ address, start.memory.read address = image.getD address 0
  registers : ∀ register, start.registers.read register = 0
  settled : start.toStore.Settled
  pc : start.pc = 0
  ir : start.ir = 0

theorem preloads_of_ofImage {image : Bytes} {start : Machine}
    (h : Machine.ofImage image = .ok start) : Preloads image start := by
  unfold Machine.ofImage at h
  cases hmemory : Memory.ofImage 256 image with
  | error e =>
    rw [hmemory] at h
    cases h
  | ok memory =>
    rw [hmemory] at h
    cases h
    exact {
      fits := Memory.length_le_of_ofImage hmemory
      memory := Memory.read_ofImage hmemory
      registers := Memory.read_zero
      settled := ⟨Memory.pending_zero, Memory.pending_ofImage hmemory⟩
      pc := rfl
      ir := rfl }

/-- The image determines the start. -/
theorem Preloads.unique {image : Bytes} {start start' : Machine} (h : Preloads image start)
    (h' : Preloads image start') : start = start' := by
  obtain ⟨⟨registers, memory⟩, pc, ir⟩ := start
  obtain ⟨⟨registers', memory'⟩, pc', ir'⟩ := start'
  have hregisters : registers = registers' :=
    Memory.eq_of_read_eq h.settled.1 h'.settled.1 fun register =>
      (h.registers register).trans (h'.registers register).symm
  have hmemory : memory = memory' :=
    Memory.eq_of_read_eq h.settled.2 h'.settled.2 fun address =>
      (h.memory address).trans (h'.memory address).symm
  have hpc : pc = pc' := h.pc.trans h'.pc.symm
  have hir : ir = ir' := h.ir.trans h'.ir.symm
  rw [hregisters, hmemory, hpc, hir]

theorem preloads_of_initial {image? : Option String} {start : Machine}
    (h : initial files image? = .ok start) :
    ∃ image, Provides files image? image ∧ Preloads image start := by
  unfold initial at h
  split at h
  · cases h
    have hzero : Machine.ofImage [] = .ok .zero := by
      rw [Machine.ofImage, Memory.ofImage_nil]
      rfl
    exact ⟨[], .nothing, preloads_of_ofImage hzero⟩
  · split at h
    · cases h
    · rename_i image hfile
      exact ⟨image, .file hfile, preloads_of_ofImage (mapError_eq_ok_iff.1 h)⟩

/-! ### The parts -/

/-- The load of a run on an input. Without a program file it is that of nothing. -/
inductive Loads (files : Files) (policy : InvalidLinePolicy) (verbosity : Verbosity)
    (input : Bytes) : Option String → Program.Load → Prop
  | nothing : Loads files policy verbosity input none ⟨.ok [], "", input, []⟩
  | file {path : String} {source : Bytes} (hfile : files path = .ok source) :
    Loads files policy verbosity input (some path) (Program.load policy verbosity source input)

variable {options : Options} {verbosity : Verbosity} {stage after : Stage}

theorem exists_of_runProgram (h : runProgram files options verbosity stage = .ok after) :
    ∃ load program, Loads files options.policy verbosity stage.input options.program load ∧
      load.program = .ok program ∧
      let ran := Program.run verbosity options.verbose program stage.machine
      after.machine = ran.machine ∧ after.input = load.rest ∧
        after.output = stage.output ++ load.output ++ ran.output := by
  unfold runProgram at h
  split at h
  · rename_i hprogram
    rw [hprogram]
    cases h
    exact ⟨_, [], .nothing, rfl, rfl, rfl, by simp [Program.run]⟩
  · rename_i path hprogram
    rw [hprogram]
    unfold runFile loadFile at h
    cases hfile : files path with
    | error e =>
      rw [hfile] at h
      cases e <;> cases h
    | ok source =>
      rw [hfile] at h
      dsimp only at h
      split at h
      · cases h
      · rename_i program hload
        cases h
        exact ⟨_, program, .file hfile, hload, rfl, rfl, rfl⟩

theorem eq_of_runConsole (h : runConsole options verbosity stage = .ok after) :
    let session := Console.session verbosity stage.input stage.machine
    (options.interactive = true → session.result = .ok ()) ∧
      after.machine = (if options.interactive then session.machine else stage.machine) ∧
      after.output = stage.output ++ if options.interactive then session.output else "" := by
  unfold runConsole at h
  split at h
  · rename_i hinteractive
    dsimp only at h
    split at h
    · cases h
    · rename_i hresult
      cases h
      exact ⟨fun _ => hresult, (if_pos hinteractive).symm, by rw [if_pos hinteractive]⟩
  · rename_i hinteractive
    cases h
    exact ⟨fun h => absurd h hinteractive, (if_neg hinteractive).symm,
      by rw [if_neg hinteractive, String.append_empty]⟩

theorem output_printDump (options : Options) (stage : Stage) :
    (printDump options stage).output = stage.output ++ if options.quiet then "" else
      "Memory:\n" ++ Dump.memory stage.machine.memory 0 256 ++
        "\nRegisters:\n" ++ Dump.registers stage.machine.registers := by
  unfold printDump
  split
  · rw [String.append_empty]
  · rfl

/-- A run that does not fail goes through all of its parts. -/
theorem exists_stages {input : Bytes} (h : (run files options verbosity input).result = .ok ()) :
    ∃ start ran closed, initial files options.image = .ok start ∧
      runProgram files options verbosity ⟨start, input, "", []⟩ = .ok ran ∧
      runConsole options verbosity ran = .ok closed ∧
      (run files options verbosity input).output = (printDump options closed).output := by
  rw [run] at h ⊢
  cases hstages : stages files options verbosity input with
  | error stopped =>
    rw [hstages] at h
    cases h
  | ok last =>
    simp only [stages, bind_eq_ok_iff, mapError_eq_ok_iff] at hstages
    obtain ⟨start, hstart, ran, hran, closed, hclosed, hlast⟩ := hstages
    cases hlast
    exact ⟨start, ran, closed, hstart, hran, hclosed, rfl⟩

/-! ### The input -/

variable {policy : InvalidLinePolicy} {input : Bytes} {path? : Option String} {load : Program.Load}

/-- The replies of a load are the first lines of the input. -/
theorem Loads.exists_replies (h : Loads files policy verbosity input path? load) :
    ∃ replies, input.physicalLines = replies ++ load.rest.physicalLines := by
  cases h with
  | nothing => exact ⟨[], rfl⟩
  | @file path source hfile =>
    obtain ⟨replies, hreplies⟩ := Program.unread_loadFrom_suffix policy verbosity 1
      source.physicalLines input.physicalLines
    exact ⟨replies, by rw [Program.physicalLines_rest, hreplies]⟩

theorem Loads.rest_of_strict (h : Loads files .strict verbosity input path? load) :
    load.rest = input := by
  cases h with
  | nothing => rfl
  | file hfile => exact (Program.load_strict_silent verbosity _ input).2

/-- The console takes the first lines of what it is given. -/
theorem exists_commands (verbosity : Verbosity) (left : Bytes) (m : Machine) :
    ∃ commands, left.physicalLines = commands ++ (Console.session verbosity left m).unread := by
  obtain ⟨commands, hcommands⟩ :=
    Console.unread_sessionFrom_suffix verbosity left.physicalLines m
  exact ⟨commands, hcommands.symm⟩

/-- A run that does not fail loads its program, with replies from the start of the input if prompts
are asked for. It executes the program on the image, and gives the machine and the rest of the input
to the console, also after a halt. It prints what these parts print, one after the other, and then
the memory and the registers. -/
theorem run_shares_input (hflags : options.strict = false ∨ options.prompt = false)
    (hrun : (run files options verbosity input).result = .ok ()) :
    let policy : InvalidLinePolicy := if options.prompt then .prompt else .strict
    ∃ image start load program,
      Provides files options.image image ∧ Preloads image start ∧
      Loads files policy verbosity input options.program load ∧ load.program = .ok program ∧
      let ran := Program.run verbosity options.verbose program start
      let session := Console.session verbosity load.rest ran.machine
      let final := if options.interactive then session.machine else ran.machine
      (run files options verbosity input).output =
        load.output ++ ran.output ++ (if options.interactive then session.output else "") ++
          (if options.quiet then "" else
            "Memory:\n" ++ Dump.memory final.memory 0 256 ++
              "\nRegisters:\n" ++ Dump.registers final.registers) ∧
      (∃ replies, input.physicalLines = replies ++ load.rest.physicalLines) ∧
      (options.interactive = true → session.result = .ok () ∧
        ∃ commands, load.rest.physicalLines = commands ++ session.unread) ∧
      (options.prompt = false → load.rest = input) ∧
      (options.prompt = true → ∀ path source, options.program = some path →
        files path = .ok source →
        ∃ corrected, Program.correctLines 1 source.physicalLines input.physicalLines =
          .corrected corrected load.rest.physicalLines) := by
  intro policy
  obtain ⟨start, ran, closed, hstart, hran, hclosed, houtput⟩ := exists_stages hrun
  obtain ⟨load, program, hloads, hprogram, hmachine, hinput, hprinted⟩ := exists_of_runProgram hran
  obtain ⟨hresult, hfinal, hshown⟩ := eq_of_runConsole hclosed
  obtain ⟨image, himage, hpreloads⟩ := preloads_of_initial hstart
  rw [Options.policy_eq hflags] at hloads
  rw [hinput, hmachine] at hresult hfinal hshown
  refine ⟨image, start, load, program, himage, hpreloads, hloads, hprogram, ?_,
    hloads.exists_replies, fun hinteractive => ⟨hresult hinteractive, exists_commands _ _ _⟩,
    ?_, ?_⟩
  · rw [houtput, output_printDump, hfinal, hshown, hprinted, String.empty_append]
  · intro hstrict
    rw [hstrict, if_neg Bool.false_ne_true] at hloads
    exact hloads.rest_of_strict
  · intro hprompt path source hpath hsource
    rw [hprompt, if_pos rfl, hpath] at hloads
    cases hloads with
    | file hfile =>
      rw [hsource] at hfile
      cases hfile
      exact Program.exists_corrected hprogram

/-- Two replies go to the second line of the program, two commands to the console, and one line is
left. The dump shows the byte of the image that the program loads, and the registers that the reply
and the first command set. -/
theorem run_shares_replies_and_commands :
    let source := Bytes.encode "1A00\n1G00\nC000\n"
    let files : Files := fun path => if path = "image" then .ok [0x2A] else .ok source
    let options : Options := ⟨some "program", some "image", false, true, true, false, false⟩
    let input := Bytes.encode "nope\n2305\nset r 11 01\nq\nr\n"
    let program : List ProgramLine := [⟨1, 0x1A00⟩, ⟨2, 0x2305⟩, ⟨3, 0xC000⟩]
    let load := Program.load .prompt none source input
    Options.parse ["--prompt", "-im", "image", "program"] = .ok options ∧
    (options.strict = false ∨ options.prompt = false) ∧
    (run files options none input).result = .ok () ∧
    ∃ start,
      Preloads [0x2A] start ∧ load.program = .ok program ∧
      load.rest.physicalLines =
        [Bytes.encode "set r 11 01\n", Bytes.encode "q\n", Bytes.encode "r\n"] ∧
      let session := Console.session none load.rest (Program.run none false program start).machine
      session.result = .ok () ∧ session.unread = [Bytes.encode "r\n"] ∧
      (run files options none input).output =
        "Line 2: \"1G00\" is not a valid instruction (Invalid hex digit 'G' at position 1)\n" ++
        "Enter 4 hex digits for line 2 (empty to skip): " ++
        "\"nope\" is not valid either (Invalid hex digit 'n' at position 0)\n" ++
        "Enter 4 hex digits for line 2 (empty to skip): " ++ "Halted at line 3\n" ++ "> > " ++
        ("Memory:\n" ++ Dump.memory session.machine.memory 0 256 ++ "\nRegisters:\n" ++
          ("R0: 00\nR1: 00\nR2: 00\nR3: 05\nR4: 00\nR5: 00\nR6: 00\nR7: 00\n" ++
            "R8: 00\nR9: 00\nR10: 2A\nR11: 01\nR12: 00\nR13: 00\nR14: 00\nR15: 00\n")) := by
  intro source files options input program load
  have hparse : Options.parse ["--prompt", "-im", "image", "program"] = .ok options := by
    decide +kernel
  obtain ⟨-, -, hflags⟩ := Options.load_flags_of_parse hparse
  have hrun : (run files options none input).result = .ok () := by decide +kernel
  obtain ⟨image, start, load', program', himage, hstart, hload, hprogram', houtput, -, hsession,
    -⟩ := run_shares_input hflags hrun
  obtain rfl : image = [0x2A] := by
    cases himage with
    | file hfile => exact (Except.ok.inj hfile).symm
  obtain rfl : load' = load := by
    cases hload with
    | file hfile => exact congrArg (Program.load .prompt none · input) (Except.ok.inj hfile).symm
  have hprogram : load.program = .ok program := by decide +kernel
  obtain rfl : program' = program := Except.ok.inj (hprogram'.symm.trans hprogram)
  -- the start as a term that can be evaluated
  let filled : Machine := .withMemory ⟨Vector.ofFn fun address => .settled ([0x2A].getD address 0)⟩
  have hfilled : Preloads [0x2A] filled := preloads_of_ofImage rfl
  obtain rfl : start = filled := hstart.unique hfilled
  obtain ⟨hresult, -⟩ := hsession rfl
  have hrest : load.rest = Bytes.encode "set r 11 01\nq\nr\n" := by decide +kernel
  have hlines : (Bytes.encode "set r 11 01\nq\nr\n").physicalLines =
      [Bytes.encode "set r 11 01\n", Bytes.encode "q\n", Bytes.encode "r\n"] := by decide +kernel
  let session := Console.session none load.rest (Program.run none false program filled).machine
  have hunread : session.unread = [Bytes.encode "r\n"] := by decide +kernel
  have hasked : load.output =
      "Line 2: \"1G00\" is not a valid instruction (Invalid hex digit 'G' at position 1)\n" ++
      "Enter 4 hex digits for line 2 (empty to skip): " ++
      "\"nope\" is not valid either (Invalid hex digit 'n' at position 0)\n" ++
      "Enter 4 hex digits for line 2 (empty to skip): " := by decide +kernel
  have hran : (Program.run none false program filled).output = "Halted at line 3\n" := by
    decide +kernel
  have hshown : session.output = "> > " := by decide +kernel
  have hregisters : Dump.registers session.machine.registers =
      "R0: 00\nR1: 00\nR2: 00\nR3: 05\nR4: 00\nR5: 00\nR6: 00\nR7: 00\n" ++
        "R8: 00\nR9: 00\nR10: 2A\nR11: 01\nR12: 00\nR13: 00\nR14: 00\nR15: 00\n" := by
    decide +kernel
  refine ⟨hparse, hflags, hrun, filled, hfilled, hprogram, hrest ▸ hlines, hresult, hunread,
    houtput.trans ?_⟩
  change load.output ++ (Program.run none false program filled).output ++ session.output ++
    ("Memory:\n" ++ Dump.memory session.machine.memory 0 256 ++ "\nRegisters:\n" ++
      Dump.registers session.machine.registers) = _
  rw [hasked, hran, hshown, hregisters]

end ByteMachine.CommandLine.Emulate
