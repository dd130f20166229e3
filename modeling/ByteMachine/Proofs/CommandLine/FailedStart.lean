import ByteMachine.CommandLine.Emulate
import ByteMachine.Proofs.Memory.Tracking
import ByteMachine.Proofs.Program.FailedLoad

/-! Runs of the emulator that do not get to execution. Without its image a run takes and prints
nothing. Without its program it prints what the loader asked and takes the replies to that; the
machine is not touched, the console not opened and nothing dumped. -/

namespace ByteMachine.CommandLine.Emulate

open Program (Fails Question)

/-- The image, if one is wanted, can be read and fits into the memory. -/
def ImageFits (files : Files) (image : Option String) : Prop :=
  ∀ path ∈ image, ∃ bytes, files path = .ok bytes ∧ bytes.length ≤ 256

/-- A run stops, and its report is about that. -/
structure StopsAs (files : Files) (options : Options) (verbosity : Verbosity) (input : Bytes)
    (stopped : Stopped) : Prop where
  stages_eq : stages files options verbosity input = .error stopped
  run_eq : run files options verbosity input =
    ⟨.error stopped.failure, stopped.output, stopped.log⟩

variable {files : Files} {options : Options} {verbosity : Verbosity} {input : Bytes}

theorem StopsAs.of_stages {stopped : Stopped}
    (h : stages files options verbosity input = .error stopped) :
    StopsAs files options verbosity input stopped :=
  ⟨h, by rw [run, h]⟩

/-! ### Without an image -/

theorem stopsAs_of_initial {failure : Failure} (h : initial files options.image = .error failure) :
    StopsAs files options verbosity input ⟨failure, input, "", []⟩ := by
  apply StopsAs.of_stages
  rw [stages, h]
  rfl

theorem initial_unreadable {path : String} {e : ReadError} (h : files path = .error e) :
    initial files (some path) = .error (.imageUnreadable path e) := by
  rw [initial, h]

theorem initial_tooLarge {path : String} {image : Bytes} (h : files path = .ok image)
    (hlength : 256 < image.length) :
    initial files (some path) = .error (.imageTooLarge ⟨image.length, 256⟩) := by
  have himage : Machine.ofImage image = .error ⟨image.length, 256⟩ := by
    rw [Machine.ofImage, Memory.ofImage_eq_error_iff.2 ⟨hlength, rfl⟩]
    rfl
  rw [initial, h]
  dsimp only
  rw [himage]
  rfl

theorem exists_initial {image : Option String} (h : ImageFits files image) :
    ∃ start, initial files image = .ok start := by
  cases image with
  | none => exact ⟨_, rfl⟩
  | some path =>
    obtain ⟨bytes, hfile, hlength⟩ := h path rfl
    have hstart : ∃ start, Machine.ofImage bytes = .ok start := by
      rw [Machine.ofImage, Memory.ofImage, if_pos hlength]
      exact ⟨_, rfl⟩
    obtain ⟨start, hstart⟩ := hstart
    refine ⟨start, ?_⟩
    rw [initial, hfile]
    dsimp only
    rw [hstart]
    rfl

/-! ### Without a program -/

section Program

variable {path : String} (hfits : ImageFits files options.image)
  (hprogram : options.program = some path)

include hfits hprogram

/-- What stops the program stops the run, whatever the machine. -/
theorem stopsAs_of_runFile {stopped : Stopped}
    (h : ∀ start, runFile files options verbosity path ⟨start, input, "", []⟩ = .error stopped) :
    StopsAs files options verbosity input stopped := by
  obtain ⟨start, hstart⟩ := exists_initial hfits
  have hrun : runProgram files options verbosity ⟨start, input, "", []⟩ = .error stopped := by
    rw [runProgram, hprogram]
    exact h start
  apply StopsAs.of_stages
  rw [stages, hstart]
  change (runProgram files options verbosity ⟨start, input, "", []⟩).bind _ = _
  rw [hrun]
  rfl

theorem stopsAs_of_loadFile {failure : Failure}
    (h : loadFile files options.policy verbosity path input = .error failure) :
    StopsAs files options verbosity input ⟨failure, input, "", []⟩ := by
  refine stopsAs_of_runFile hfits hprogram fun start => ?_
  rw [runFile, h]

theorem stopsAs_of_load {source : Bytes} (hfile : files path = .ok source) {e : LoadError}
    {asked : List Question} {unread : List Bytes}
    (h : Fails options.policy 1 source.physicalLines input.physicalLines e asked unread) :
    StopsAs files options verbosity input
      ⟨.programNotLoaded path e, unread.flatten, String.join (asked.map Question.text),
        (Program.load options.policy verbosity source input).log⟩ := by
  obtain ⟨hresult, houtput, hunread⟩ := Program.failsWith_loadFrom verbosity h
  have hload : loadFile files options.policy verbosity path input =
      .ok (Program.load options.policy verbosity source input) := by
    rw [loadFile, hfile]
  have hfailed : (Program.load options.policy verbosity source input).program = .error e := hresult
  have hprinted : (Program.load options.policy verbosity source input).output =
      String.join (asked.map Question.text) := houtput
  have hrest : (Program.load options.policy verbosity source input).rest = unread.flatten :=
    congrArg List.flatten hunread
  refine stopsAs_of_runFile hfits hprogram fun start => ?_
  rw [runFile, hload]
  dsimp only
  rw [hfailed, hprinted, hrest, String.empty_append, List.nil_append]

end Program

/-- A run fails at its image without a look at anything else. With its image it fails at its program
file, and exactly if this does not load as a whole. It then has printed the questions about the
lines before and no more, and has left the input that is not a reply. -/
theorem run_stops_unless_loaded (files : Files) (options : Options) (verbosity : Verbosity)
    (input : Bytes) :
    (∀ path, options.image = some path →
      (∀ e, files path = .error e →
        StopsAs files options verbosity input ⟨.imageUnreadable path e, input, "", []⟩) ∧
      ∀ image, files path = .ok image → 256 < image.length →
        StopsAs files options verbosity input ⟨.imageTooLarge ⟨image.length, 256⟩, input, "", []⟩) ∧
    (ImageFits files options.image → ∀ path, options.program = some path →
      (∀ e, files path = .error e → e ≠ .isDirectory →
        StopsAs files options verbosity input ⟨.programNotOpened path e, input, "", []⟩) ∧
      (files path = .error .isDirectory →
        StopsAs files options verbosity input
          ⟨.programNotLoaded path (.unreadable .isDirectory), input, "", []⟩) ∧
      ∀ source, files path = .ok source →
        let load := Program.load options.policy verbosity source input
        load.log.traced = [] ∧
        ∀ e,
          (load.program = .error e ↔ ∃ asked unread,
            Fails options.policy 1 source.physicalLines input.physicalLines e asked unread) ∧
          ∀ asked unread,
            Fails options.policy 1 source.physicalLines input.physicalLines e asked unread →
            StopsAs files options verbosity input
              ⟨.programNotLoaded path e, unread.flatten, String.join (asked.map Question.text),
                load.log⟩ ∧
            (options.policy = .strict → asked = [] ∧ unread.flatten = input)) := by
  refine ⟨fun path himage => ⟨fun e hfile => ?_, fun image hfile hlength => ?_⟩,
    fun hfits path hprogram => ⟨fun e hfile hne => ?_, fun hfile => ?_, fun source hfile => ?_⟩⟩
  · exact stopsAs_of_initial (himage ▸ initial_unreadable hfile)
  · exact stopsAs_of_initial (himage ▸ initial_tooLarge hfile hlength)
  · apply stopsAs_of_loadFile hfits hprogram
    rw [loadFile, hfile]
    cases e with
    | isDirectory => exact absurd rfl hne
    | _ => rfl
  · apply stopsAs_of_loadFile hfits hprogram
    rw [loadFile, hfile]
  · refine ⟨Program.traced_loadFrom _ _ _ _ _, fun e =>
      ⟨Program.load_eq_error_iff _ _ _ _ e, fun asked unread hfails =>
        ⟨stopsAs_of_load hfits hprogram hfile hfails, fun hstrict => ?_⟩⟩⟩
    rw [hstrict] at hfails
    obtain ⟨hasked, hunread⟩ := hfails.strict
    exact ⟨hasked, by rw [hunread, Bytes.flatten_physicalLines]⟩

/-- The second line is corrected, the reply to the fourth cannot be read, and the commands after it
are not taken. An image that is too large keeps the program from being looked at. -/
theorem run_stops_at_fourth_line :
    let source := Bytes.encode "2A05\n1G00\n# F000\nC00\nC000\n"
    let files : Files := fun path =>
      if path = "large" then .ok (List.replicate 257 0)
      else if path = "image" then .ok [0x2A]
      else .ok source
    let options : Options := ⟨some "program", some "image", false, true, true, true, false⟩
    let input := Bytes.encode "nope\n3A10\n" ++ 0xFF :: 10 :: Bytes.encode "r\nq\n"
    let asked : List Question :=
      [⟨2, "1G00", .invalidDigit 1 'G', [Bytes.encode "nope\n"]⟩, ⟨4, "C00", .wrongLength 3, []⟩]
    let unread := [Bytes.encode "r\n", Bytes.encode "q\n"]
    ImageFits files options.image ∧
    Fails .prompt 1 source.physicalLines input.physicalLines (.unreadable .invalidEncoding) asked
      unread ∧
    StopsAs files options none input
      ⟨.programNotLoaded "program" (.unreadable .invalidEncoding), Bytes.encode "r\nq\n",
        String.join (asked.map Question.text), []⟩ ∧
    StopsAs files { options with image := some "large" } none input
      ⟨.imageTooLarge ⟨257, 256⟩, input, "", []⟩ := by
  intro source files options input asked unread
  have hfits : ImageFits files options.image := by
    rintro path ⟨⟩
    exact ⟨[0x2A], rfl, by decide⟩
  have hsource : source.physicalLines = [Bytes.encode "2A05\n", Bytes.encode "1G00\n",
      Bytes.encode "# F000\n", Bytes.encode "C00\n", Bytes.encode "C000\n"] := by decide +kernel
  have hinput : input.physicalLines = Bytes.encode "nope\n" :: Bytes.encode "3A10\n" ::
      [0xFF, 10] :: unread := by decide +kernel
  have hsecond : (Question.mk 2 "1G00" (.invalidDigit 1 'G') [Bytes.encode "nope\n"]).Concerns
      (Bytes.encode "1G00\n") := ⟨by decide +kernel, by decide +kernel⟩
  have hfourth : (Question.mk 4 "C00" (.wrongLength 3) []).Concerns (Bytes.encode "C00\n") :=
    ⟨by decide +kernel, by decide +kernel⟩
  have hanswer : (Program.Reply.ofBytes (Bytes.encode "3A10\n")).answer = .ok (some 0x3A10) := by
    decide +kernel
  have hreply : Program.Reply.ofBytes [0xFF, 10] = .illFormed := by
    have hdecode : Bytes.decode [0xFF, 10] = .error .invalidEncoding := by decide +kernel
    rw [Program.Reply.ofBytes, hdecode]
  have hfails : Fails .prompt 1 source.physicalLines input.physicalLines
      (.unreadable .invalidEncoding) asked unread := by
    rw [hsource, hinput]
    refine .accepted (by decide +kernel) (.corrected hsecond hanswer ?_)
    exact .accepted (by decide +kernel) (.illFormedReply hfourth hreply)
  obtain ⟨-, hprogram⟩ := run_stops_unless_loaded files options none input
  obtain ⟨himage, -⟩ :=
    run_stops_unless_loaded files { options with image := some "large" } none input
  obtain ⟨-, -, hload⟩ := hprogram hfits "program" rfl
  obtain ⟨-, hfailed⟩ := hload source rfl
  obtain ⟨hstops, -⟩ := (hfailed _).2 asked unread hfails
  have hlength : (List.replicate 257 (0 : Byte)).length = 257 := List.length_replicate
  have hlarge := (himage "large" rfl).2 (List.replicate 257 0) rfl (by rw [hlength]; decide)
  rw [hlength] at hlarge
  refine ⟨hfits, hfails, ?_, hlarge⟩
  have hlog : (Program.load .prompt none source input).log = [] := by decide +kernel
  have hunread : unread.flatten = Bytes.encode "r\nq\n" := by decide +kernel
  rw [hunread] at hstops
  exact hlog ▸ hstops

end ByteMachine.CommandLine.Emulate
