import ByteMachine.Proofs.Program.ReportReader

/-! What a run prints. A verbose run prints a block for every executed instruction: its line and
word, and the changes that are pending after it. Since changes are taken after every instruction,
those are what this instruction changed, one cell at most. So the printed changes lead from the
contents before the run to those after it, and back. -/

namespace ByteMachine.Program

open Contents

/-! ### The steps of a run -/

/-- The steps of a run; nothing is pending before any of them but the first. -/
def steps (verbosity : Verbosity) (program : List ProgramLine) (m : Machine) :
    List (Step ProgramLine) :=
  Machine.trace verbosity Machine.settle ProgramLine.word program m

/-- What is printed after all blocks: the line of the instruction that halts, if one does. -/
def ending (steps : List (Step ProgramLine)) : String :=
  match steps.find? Step.halts with
  | none => ""
  | some step => haltLine step.item

theorem ending_cons (step : Step ProgramLine) (steps : List (Step ProgramLine)) :
    ending (step :: steps) = if step.halts then haltLine step.item else ending steps := by
  unfold ending
  cases h : step.halts with
  | true =>
    rw [List.find?_cons_of_pos h]
    rfl
  | false =>
    rw [List.find?_cons_of_neg (Bool.eq_false_iff.1 h)]
    rfl

/-- A run is what its steps say. -/
theorem run_eq_steps (verbosity : Verbosity) (verbose : Bool) (program : List ProgramLine)
    (m : Machine) :
    let taken := steps verbosity program m
    let blocks := String.join (taken.map fun step => block step.item step.after.toStore)
    run verbosity verbose program m =
      { machine := Step.final Machine.settle m taken
        summary := Step.summary taken
        output := (if verbose then blocks else "") ++ ending taken
        log := taken.flatMap fun step => step.outcome.log } := by
  induction program generalizing m with
  | nil => cases verbose <;> rfl
  | cons entry program ih =>
    dsimp only
    cases h : (m.execute verbosity entry.word).status with
    | halted =>
      have hhalts : Step.halts ⟨entry, m, m.execute verbosity entry.word⟩ = true :=
        Step.halts_of_status h
      rw [steps, Machine.trace_cons_halted h, Step.final_cons, ending_cons, if_pos hhalts, run]
      simp only [h, hhalts, Step.summary, List.any_cons, List.map_cons, List.map_nil,
        String.join_cons, String.join_nil, String.append_empty, List.flatMap_singleton]
      rfl
    | normal =>
      have hhalts : Step.halts ⟨entry, m, m.execute verbosity entry.word⟩ = false :=
        Step.not_halts_of_status h
      rw [steps, Machine.trace_cons_normal h, Step.final_cons, ending_cons, hhalts, run]
      simp only [h, ih, hhalts, Step.summary, List.any_cons, List.map_cons, String.join_cons,
        List.flatMap_cons]
      cases verbose with
      | true =>
        simp only [if_pos, String.append_assoc]
        rfl
      | false =>
        simp only [Bool.false_eq_true, if_false, String.empty_append]
        rfl

/-- The verbosity matters to the log only. -/
theorem run_verbosity (verbosity verbosity' : Verbosity) (verbose : Bool)
    (program : List ProgramLine) (m : Machine) :
    let first := run verbosity verbose program m
    let second := run verbosity' verbose program m
    first.machine = second.machine ∧ first.summary = second.summary ∧
      first.output = second.output := by
  induction program generalizing m with
  | nil => exact ⟨rfl, rfl, rfl⟩
  | cons entry program ih =>
    have hstate := Machine.state_execute_congr verbosity verbosity' entry.word m
    have hstatus := Machine.status_execute_congr verbosity verbosity' entry.word m
    obtain ⟨hmachine, hsummary, houtput⟩ := ih (m.execute verbosity entry.word).state.settle
    dsimp only [run]
    rw [← hstate, ← hstatus]
    cases (m.execute verbosity entry.word).status with
    | halted => exact ⟨rfl, rfl, rfl⟩
    | normal =>
      dsimp only
      rw [hmachine, hsummary, houtput]
      exact ⟨rfl, rfl, rfl⟩

/-! ### Lines of a run -/

/-- The lines of a verbose run. -/
def reportLines (steps : List (Step ProgramLine)) : List String :=
  (steps.flatMap fun step =>
    header step.item :: step.after.toStore.pendingChanges.map changeLine) ++
    (steps.find? Step.halts).toList.map fun step => haltLine step.item

theorem output_run (verbosity : Verbosity) (program : List ProgramLine) (m : Machine) :
    (run verbosity true program m).output =
      String.join (reportLines (steps verbosity program m)) := by
  have hending : ∀ taken : List (Step ProgramLine), ending taken =
      String.join ((taken.find? Step.halts).toList.map fun step => haltLine step.item) := by
    intro taken
    unfold ending
    cases taken.find? Step.halts <;> simp
  rw [run_eq_steps, reportLines, String.join_append, Text.join_flatMap, ← hending]
  simp only [block_eq, String.join_cons, if_true]

theorem isLine_reportLines (steps : List (Step ProgramLine)) :
    ∀ line ∈ reportLines steps, Text.IsLine line := by
  intro line hline
  rw [reportLines, List.mem_append, List.mem_flatMap, List.mem_map] at hline
  rcases hline with ⟨step, -, hline⟩ | ⟨step, -, rfl⟩
  · rcases List.mem_cons.1 hline with rfl | hline
    · exact isLine_header _
    · obtain ⟨change, -, rfl⟩ := List.mem_map.1 hline
      exact isLine_changeLine change
  · exact isLine_haltLine _

/-- Headers and halts are passed over. -/
theorem readChanges_run (verbosity : Verbosity) (program : List ProgramLine) (m : Machine) :
    readChanges (run verbosity true program m).output =
      (steps verbosity program m).flatMap fun step => step.after.toStore.pendingChanges := by
  have hblock (step : Step ProgramLine) :
      (header step.item :: step.after.toStore.pendingChanges.map changeLine).filterMap
        readChangeLine = step.after.toStore.pendingChanges := by
    rw [List.filterMap_cons_none (readChangeLine_header step.item), filterMap_readChangeLine]
  have hending : (((steps verbosity program m).find? Step.halts).toList.map fun step =>
      haltLine step.item).filterMap readChangeLine = [] := by
    refine List.filterMap_eq_nil_iff.2 fun line hline => ?_
    obtain ⟨step, -, rfl⟩ := List.mem_map.1 hline
    exact readChangeLine_haltLine step.item
  rw [output_run, readChanges_join (isLine_reportLines _), reportLines, List.filterMap_append,
    hending, List.append_nil, List.filterMap_flatMap]
  exact List.flatMap_congr fun step _ => hblock step

/-! ### Changes of a run -/

/-- The cells that a step changes. -/
def changed (step : Step ProgramLine) : List (Place × Change) :=
  difference step.before.value step.after.value

section Settled

variable {verbosity : Verbosity} {program : List ProgramLine} {m : Machine}

theorem length_changed_le {step : Step ProgramLine} (h : step ∈ steps verbosity program m) :
    (changed step).length ≤ 1 := by
  obtain ⟨houtcome, -⟩ := Machine.of_mem_trace h
  rw [changed, Step.after, houtcome]
  exact Store.length_difference_apply verbosity step.item.word step.before.toStore

/-- With nothing pending at first, what is pending after a step is what it changed. -/
theorem pendingChanges_eq_changed (hm : m.toStore.Tracks m.value) {step : Step ProgramLine}
    (h : step ∈ steps verbosity program m) : step.after.toStore.pendingChanges = changed step := by
  obtain ⟨houtcome, hbefore⟩ := Machine.of_mem_trace h
  have htracks : step.before.toStore.Tracks step.before.value := by
    rcases hbefore with heq | ⟨m', heq⟩
    · rw [heq]
      exact hm
    · rw [heq]
      exact (Store.value_settle m'.toStore).symm ▸ Store.tracks_settle m'.toStore
  have hafter : step.after.toStore.Tracks step.before.value := by
    rw [Step.after, houtcome]
    exact htracks.apply verbosity step.item.word
  exact hafter.pendingChanges_eq

end Settled

/-- The changes of a step lead from the cells before it to those after it, and back. -/
theorem redo_undo_changed (step : Step ProgramLine) :
    redo (changed step) step.before.value = step.after.value ∧
      undo (changed step) step.after.value = step.before.value :=
  ⟨Store.redo_difference _ _, Store.undo_difference _ _⟩

/-- So do the changes of a run. -/
theorem redo_undo_steps (verbosity : Verbosity) (program : List ProgramLine) (m : Machine) :
    let taken := steps verbosity program m
    let last := Step.final Machine.settle m taken
    redo (taken.flatMap changed) m.value = last.value ∧
      undo (taken.flatMap changed) last.value = m.value := by
  induction program generalizing m with
  | nil => exact ⟨rfl, rfl⟩
  | cons entry program ih =>
    have hsettle := Store.value_settle (m.execute verbosity entry.word).state.toStore
    obtain ⟨hredo, hundo⟩ := redo_undo_changed ⟨entry, m, m.execute verbosity entry.word⟩
    obtain ⟨ihredo, ihundo⟩ := ih (m.execute verbosity entry.word).state.settle
    dsimp only
    cases h : (m.execute verbosity entry.word).status with
    | halted =>
      rw [steps, Machine.trace_cons_halted h, List.flatMap_singleton, Step.final_cons]
      exact ⟨hredo.trans hsettle.symm, (congrArg _ hsettle).trans hundo⟩
    | normal =>
      rw [steps, Machine.trace_cons_normal h, List.flatMap_cons, Step.final_cons, redo_append,
        undo_append, hredo]
      exact ⟨(congrArg _ hsettle.symm).trans ihredo,
        (congrArg _ (ihundo.trans hsettle)).trans hundo⟩

/-- The run halts if its last step does. -/
theorem ending_steps (verbosity : Verbosity) (program : List ProgramLine) (m : Machine) :
    let taken := steps verbosity program m
    if (Step.summary taken).halted then
      ∃ step, taken.getLast? = some step ∧ step.status = .halted ∧
        ending taken = haltLine step.item
    else (∀ step ∈ taken, step.status = .normal) ∧ ending taken = "" := by
  have hlast : (steps verbosity program m).find? Step.halts =
      (steps verbosity program m).getLast?.filter Step.halts := Machine.find?_halts_trace program m
  unfold ending
  dsimp only
  cases hfind : (steps verbosity program m).find? Step.halts with
  | none =>
    have hnone := List.find?_eq_none.1 hfind
    have hany : (Step.summary (steps verbosity program m)).halted = false :=
      List.any_eq_false.2 hnone
    rw [hany, if_neg Bool.false_ne_true]
    refine ⟨fun step hstep => ?_, rfl⟩
    cases hstatus : step.status with
    | normal => rfl
    | halted => exact absurd (Step.halts_of_status hstatus) (hnone step hstep)
  | some step =>
    have hhalts := List.find?_some hfind
    have hany : (Step.summary (steps verbosity program m)).halted = true :=
      List.any_eq_true.2 ⟨step, List.mem_of_find?_eq_some hfind, hhalts⟩
    rw [hany, if_pos rfl]
    rw [hfind] at hlast
    exact ⟨step, (Option.filter_eq_some_iff.1 hlast.symm).1, beq_iff_eq.1 hhalts, rfl⟩

/-- With nothing pending at first, a verbose run prints what every instruction changes. The changes
that are read in its text lead from the cells before the run to those after it, and back. -/
theorem verbose_run_traces_changes (verbosity : Verbosity) (program : List ProgramLine)
    (m : Machine) (hregisters : m.registers.pending = []) (hmemory : m.memory.pending = []) :
    let result := run verbosity true program m
    let taken := steps verbosity program m
    let printed := readChanges result.output
    taken.map Step.item = program.take result.summary.executed ∧
    result.output = String.join (taken.map fun step =>
      header step.item ++ String.join ((changed step).map changeLine)) ++ ending taken ∧
    (run verbosity false program m).output = ending taken ∧
    (∀ step ∈ taken,
      step.after = (step.before.execute verbosity step.item.word).state ∧
      (∀ place change, (place, change) ∈ changed step ↔
        place.Exists ∧ step.before.value place ≠ step.after.value place ∧
          change = ⟨step.before.value place, step.after.value place⟩) ∧
      (changed step).length ≤ 1) ∧
    (if result.summary.halted then
      ∃ step, taken.getLast? = some step ∧ step.status = .halted ∧
        ending taken = haltLine step.item
    else (∀ step ∈ taken, step.status = .normal) ∧ ending taken = "") ∧
    printed = taken.flatMap changed ∧
    redo printed m.value = result.machine.value ∧
    undo printed result.machine.value = m.value := by
  intro result taken printed
  have htracks := Store.tracks_of_pending_eq_nil hregisters hmemory
  have hpending : ∀ step ∈ taken, step.after.toStore.pendingChanges = changed step :=
    fun step hstep => pendingChanges_eq_changed htracks hstep
  have hblocks : (taken.map fun step => block step.item step.after.toStore) =
      taken.map fun step => header step.item ++ String.join ((changed step).map changeLine) := by
    refine List.map_congr_left fun step hstep => ?_
    rw [block_eq, hpending step hstep]
  have hprinted : printed = taken.flatMap changed :=
    (readChanges_run verbosity program m).trans (List.flatMap_congr hpending)
  have hresult : result = _ := run_eq_steps verbosity true program m
  have hquiet := congrArg Run.output (run_eq_steps verbosity false program m)
  rw [hprinted, hresult]
  refine ⟨Machine.items_trace program m, congrArg (String.join · ++ ending taken) hblocks,
    hquiet.trans String.empty_append, fun step hstep => ?_, ending_steps verbosity program m, rfl,
    redo_undo_steps verbosity program m⟩
  obtain ⟨houtcome, -⟩ := Machine.of_mem_trace hstep
  exact ⟨congrArg Outcome.state houtcome, fun _ _ => mem_difference, length_changed_le hstep⟩

/-- A register is set and copied to memory, the program halts, and its last line is not reached. -/
theorem verbose_run_sets_cells_and_halts :
    let program : List ProgramLine := [⟨1, 0x2A05⟩, ⟨2, 0x3A80⟩, ⟨4, 0xC000⟩, ⟨5, 0x2B01⟩]
    let result := run none true program .zero
    let taken := steps none program .zero
    let printed : List (Place × Change) := [(.register 10, ⟨0, 5⟩), (.memory 0x80, ⟨0, 5⟩)]
    Machine.zero.registers.pending = [] ∧ Machine.zero.memory.pending = [] ∧
    result.summary = ⟨3, true⟩ ∧
    result.output = "   1: 2A05\nR10: 00 -> 05\n   2: 3A80\n[80]: 00 -> 05\n" ++
      "   4: C000\nHalted at line 4\n" ∧
    taken.map Step.item = [⟨1, 0x2A05⟩, ⟨2, 0x3A80⟩, ⟨4, 0xC000⟩] ∧
    ending taken = "Halted at line 4\n" ∧
    taken.flatMap changed = printed ∧
    redo printed Machine.zero.value = result.machine.value ∧
    undo printed result.machine.value = Machine.zero.value := by
  intro program result taken printed
  have hregisters : Machine.zero.registers.pending = [] := by decide +kernel
  have hmemory : Machine.zero.memory.pending = [] := by decide +kernel
  have hsummary : result.summary = ⟨3, true⟩ := by decide +kernel
  have houtput : result.output = "   1: 2A05\nR10: 00 -> 05\n   2: 3A80\n[80]: 00 -> 05\n" ++
      "   4: C000\nHalted at line 4\n" := by decide +kernel
  have hshort : (run none false program .zero).output = "Halted at line 4\n" := by decide +kernel
  have hread : readChanges result.output = printed := by
    rw [houtput]
    decide +kernel
  obtain ⟨hitems, -, hquiet, -, -, hprinted, hredo, hundo⟩ :=
    verbose_run_traces_changes none program .zero hregisters hmemory
  rw [show (run none true program .zero).summary = ⟨3, true⟩ from hsummary] at hitems
  rw [show readChanges (run none true program .zero).output = printed from hread]
    at hprinted hredo hundo
  exact ⟨hregisters, hmemory, hsummary, houtput, hitems, hquiet.symm.trans hshort, hprinted.symm,
    hredo, hundo⟩

end ByteMachine.Program
