import ByteMachine.Proofs.Console.ExecuteLine

/-! Three ways of executing words: a run, which takes changes after every instruction, the console,
which does so too, and plain execution, which lets them pile up. They agree in how far they go and
in what the cells hold; and a verbose run tells the same changes as the console does. -/

namespace ByteMachine

open Contents

namespace Program

/-! ### The changes in a report -/

/-- Whether the line of a report is a header or reports a halt. -/
def isFrame (program : List ProgramLine) (line : String) : Bool :=
  program.any fun entry => line == header entry || line == haltLine entry

variable {program : List ProgramLine}

theorem isFrame_header {entry : ProgramLine} (h : entry ∈ program) :
    isFrame program (header entry) = true :=
  List.any_eq_true.2 ⟨entry, h, by simp⟩

theorem isFrame_haltLine {entry : ProgramLine} (h : entry ∈ program) :
    isFrame program (haltLine entry) = true :=
  List.any_eq_true.2 ⟨entry, h, by simp⟩

theorem isFrame_changeLine (change : Place × Change) :
    isFrame program (changeLine change) = false := by
  refine List.any_eq_false.2 fun entry _ => ?_
  simp [changeLine_ne_header, changeLine_ne_of_head? (head?_haltLine entry)]

/-- The lines that report changes of steps. -/
def changeLines (steps : List (Step ProgramLine)) : List String :=
  steps.flatMap fun step => step.after.toStore.pendingChanges.map changeLine

theorem filter_changeLines {drop : String → Bool}
    (h : ∀ change, drop (changeLine change) = false) (changes : List (Place × Change)) :
    ((changes.map changeLine).filter fun line => !drop line) = changes.map changeLine := by
  refine List.filter_eq_self.2 fun line hline => ?_
  obtain ⟨change, -, rfl⟩ := List.mem_map.1 hline
  rw [h change]
  rfl

/-- Without its frame a report tells the changes. -/
theorem filter_reportLines {steps : List (Step ProgramLine)}
    (h : ∀ step ∈ steps, step.item ∈ program) :
    ((reportLines steps).filter fun line => !isFrame program line) = changeLines steps := by
  have hblocks : ∀ step ∈ steps,
      ((header step.item :: step.after.toStore.pendingChanges.map changeLine).filter
        fun line => !isFrame program line) = step.after.toStore.pendingChanges.map changeLine := by
    intro step hstep
    rw [List.filter_cons_of_neg (by simp [isFrame_header (h step hstep)])]
    exact filter_changeLines isFrame_changeLine _
  have hending : (((steps.find? Step.halts).toList.map fun step => haltLine step.item).filter
      fun line => !isFrame program line) = [] := by
    refine List.filter_eq_nil_iff.2 fun line hline => ?_
    obtain ⟨step, hstep, rfl⟩ := List.mem_map.1 hline
    have hmem := List.mem_of_find?_eq_some (Option.mem_toList.1 hstep)
    simp [isFrame_haltLine (h step hmem)]
  rw [reportLines, List.filter_append, hending, List.append_nil, List.filter_flatMap]
  exact List.flatMap_congr hblocks

end Program

namespace Console

open Program

/-! ### The changes in responses -/

def haltedLine : String := "Halted\n"

/-- The lines of the responses to steps. -/
def responseLines (steps : List (Step ProgramLine)) : List String :=
  steps.flatMap fun step =>
    step.after.toStore.pendingChanges.map changeLine ++ if step.halts then [haltedLine] else []

theorem join_responseLines (steps : List (Step ProgramLine)) :
    String.join ((steps.map stepResponse).map Response.output) =
      String.join (responseLines steps) := by
  rw [responseLines, Text.join_flatMap, List.map_map]
  congr 1
  refine List.map_congr_left fun step _ => ?_
  rw [Function.comp_apply, stepResponse, changes_eq, String.join_append]
  cases step.halts <;> simp [haltedLine]

theorem isLine_responseLines (steps : List (Step ProgramLine)) :
    ∀ line ∈ responseLines steps, Text.IsLine line := by
  have hhalted : Text.IsLine haltedLine := Text.isLine_append_newline (s := "Halted") (by decide)
  intro line hline
  rw [responseLines, List.mem_flatMap] at hline
  obtain ⟨step, -, hline⟩ := hline
  rcases List.mem_append.1 hline with hline | hline
  · obtain ⟨change, -, rfl⟩ := List.mem_map.1 hline
    exact isLine_changeLine change
  · split at hline
    · rw [List.mem_singleton.1 hline]
      exact hhalted
    · cases hline

theorem filter_responseLines (steps : List (Step ProgramLine)) :
    ((responseLines steps).filter fun line => !(line == haltedLine)) = changeLines steps := by
  have hchange : ∀ change, (changeLine change == haltedLine) = false := fun change =>
    beq_eq_false_iff_ne.2 (changeLine_ne_of_head? (by decide) change)
  rw [responseLines, changeLines, List.filter_flatMap]
  refine List.flatMap_congr fun step _ => ?_
  rw [List.filter_append, filter_changeLines hchange]
  cases step.halts <;> simp

end Console

/-! ### Agreement -/

open Program Console

/-- A run and plain execution go in lock step. -/
theorem run_simulates (verbosity verbosity' : Verbosity) (program : List ProgramLine)
    (m : Machine) :
    let taken := steps verbosity program m
    let executed := m.executeAll verbosity' (program.map ProgramLine.word)
    Step.summary taken = executed.summary ∧
      (Step.final Machine.settle m taken).SameContents executed.machine := by
  have hitems : List.Forall₂ (fun entry word => entry.word = word) program
      (program.map ProgramLine.word) :=
    List.forall₂_map_right_iff.2 (List.forall₂_same.2 fun _ _ => rfl)
  have hsteps : List.Forall₂
      (Step.Matches (fun entry word => entry.word = word) Machine.SameContents)
      (steps verbosity program m)
      (Machine.trace verbosity' id id (program.map ProgramLine.word) m) := by
    refine Machine.trace_matches ?_ (fun _ _ h => h.settle_left) hitems (.refl m)
    rintro entry _ m₁ m₂ rfl hm
    exact Machine.execute_sameContents hm verbosity verbosity' entry.word
  have hexecuted := Machine.executeWords_eq_trace verbosity' (program.map ProgramLine.word) m
  dsimp only [Machine.executeAll]
  rw [hexecuted]
  exact ⟨Step.summary_eq hsteps, Step.final_related (fun _ _ h => h.settle_left) hsteps (.refl m)⟩

/-- Without its frame a verbose run prints what the console does without the lines on halting. -/
theorem withoutLines_run (verbosity verbosity' : Verbosity) (program : List ProgramLine)
    (m : Machine) :
    Text.withoutLines (isFrame program) (run verbosity true program m).output =
      Text.withoutLines (· == haltedLine)
        (String.join ((responses verbosity' (typed program) m).map Response.output)) := by
  have hitems : ∀ step ∈ steps verbosity' program m, step.item ∈ program := by
    intro step hstep
    have hitem : step.item ∈ (steps verbosity' program m).map Step.item :=
      List.mem_map_of_mem hstep
    rw [steps, Machine.items_trace] at hitem
    exact List.mem_of_mem_take hitem
  obtain ⟨-, -, houtput⟩ := run_verbosity verbosity verbosity' true program m
  rw [houtput, output_run, Text.withoutLines_join (isLine_reportLines _),
    filter_reportLines hitems, responses_typed, join_responseLines,
    Text.withoutLines_join (isLine_responseLines _), filter_responseLines]

/-- A run, execution of its words, and the console given the words up to the first that halts. -/
theorem run_agrees_with_execution_and_console (verbosity₁ verbosity₂ verbosity₃ : Verbosity)
    (verbose : Bool) (program : List ProgramLine) (m : Machine) :
    let ran := run verbosity₁ verbose program m
    let executed := m.executeAll verbosity₂ (program.map ProgramLine.word)
    let given := responses verbosity₃ (typed program) m
    let console := machineAfter m given
    ran.summary = executed.summary ∧
    ran.machine.SameContents executed.machine ∧ console.SameContents executed.machine ∧
    (∀ response ∈ given, response.result = .ok .goOn) ∧
    (program ≠ [] →
      ran.machine.toStore.pendingChanges = [] ∧ console.toStore.pendingChanges = []) ∧
    (m.registers.pending = [] → m.memory.pending = [] →
      executed.machine.toStore.pendingChanges = difference m.value executed.machine.value) ∧
    Text.withoutLines (isFrame program) (run verbosity₁ true program m).output =
      Text.withoutLines (· == haltedLine) (String.join (given.map Response.output)) := by
  intro ran executed given console
  obtain ⟨hmachine, hsummary, -⟩ := run_verbosity verbosity₁ verbosity₃ verbose program m
  rw [run_eq_steps verbosity₃] at hmachine hsummary
  obtain ⟨hsame, hcontents⟩ := run_simulates verbosity₃ verbosity₂ program m
  have hgiven : given = _ := responses_typed verbosity₃ program m
  have hconsole : console = ran.machine := by
    rw [show console = machineAfter m given from rfl, hgiven, machineAfter_stepResponse]
    exact hmachine.symm
  have hran : ran.machine.SameContents executed.machine := by
    rw [show ran.machine = _ from hmachine]
    exact hcontents
  have hsettled : program ≠ [] → ran.machine.toStore.pendingChanges = [] := by
    intro hne
    obtain ⟨m', hm'⟩ := Step.exists_final Machine.settle m (Machine.trace_ne_nil hne m)
    rw [show ran.machine = _ from hmachine.trans hm']
    exact Store.pendingChanges_settle m'.toStore
  refine ⟨hsummary.trans hsame, hran, hconsole ▸ hran, fun response hresponse => ?_,
    fun hne => ⟨hsettled hne, hconsole ▸ hsettled hne⟩, fun hregisters hmemory => ?_,
    withoutLines_run verbosity₁ verbosity₃ program m⟩
  · rw [hgiven] at hresponse
    obtain ⟨step, -, rfl⟩ := List.mem_map.1 hresponse
    rfl
  · have htracks := Store.tracks_of_pending_eq_nil hregisters hmemory
    exact (Machine.tracks_executeWords htracks verbosity₂ _).pendingChanges_eq

/-- A register is set and the program halts; only plain execution leaves the change pending. -/
theorem run_agrees_on_setting_register_and_halting :
    let program : List ProgramLine := [⟨1, 0x2A05⟩, ⟨4, 0xC000⟩, ⟨5, 0x2B01⟩]
    let ran := run none true program .zero
    let executed := Machine.zero.executeAll none [0x2A05, 0xC000, 0x2B01]
    let console := machineAfter .zero (responses none ["x 2A05", "x C000"] .zero)
    executed.summary = ⟨2, true⟩ ∧ ran.summary = ⟨2, true⟩ ∧
    console.SameContents executed.machine ∧
    executed.machine.toStore.pendingChanges = difference Machine.zero.value executed.machine.value ∧
    ran.machine.toStore.pendingChanges = [] ∧ console.toStore.pendingChanges = [] := by
  intro program ran executed console
  have htyped : typed program = ["x 2A05", "x C000"] := by decide +kernel
  have hsummary : (Machine.zero.executeAll none [0x2A05, 0xC000, 0x2B01]).summary = ⟨2, true⟩ := by
    decide +kernel
  have hregisters : Machine.zero.registers.pending = [] := by decide +kernel
  have hmemory : Machine.zero.memory.pending = [] := by decide +kernel
  obtain ⟨hagree, -, hconsole, -, hsettled, hpending, -⟩ :=
    run_agrees_with_execution_and_console none none none true program .zero
  rw [htyped] at hconsole hsettled
  obtain ⟨hran, hdone⟩ := hsettled (List.cons_ne_nil _ _)
  exact ⟨hsummary, hagree.trans hsummary, hconsole, hpending hregisters hmemory, hran, hdone⟩

end ByteMachine
