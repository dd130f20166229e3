import ByteMachine.Machine.Execute
import ByteMachine.Proofs.Machine.Difference

/-! What execution logs. A word is announced with the least grave severity, and nothing else that is
logged of it has that severity. A log at some verbosity is the whole log without the messages that
the verbosity does not admit. -/

namespace ByteMachine

/-! ### Logs by verbosity -/

/-- What is kept of a whole log. -/
def Log.admitted (verbosity : Verbosity) (log : Log) : Log :=
  match verbosity with
  | none => []
  | some .info => log.filter fun entry => entry.severity == .info
  | some .debug => log.filter fun entry => entry.severity != .trace
  | some .trace => log

/-- The messages that trace the execution. -/
def Log.traced (log : Log) : List String :=
  (log.filter fun entry => entry.severity == .trace).map Entry.message

namespace Log

variable {verbosity : Verbosity}

theorem admitted_nil (verbosity : Verbosity) : admitted verbosity [] = [] := by
  match verbosity with
  | none | some .info | some .debug | some .trace => rfl

/-- These are the messages that the verbosity admits. -/
theorem admitted_eq_filter (verbosity : Verbosity) (log : Log) :
    admitted verbosity log = log.filter fun entry => verbosity.admits entry.severity := by
  match verbosity with
  | none => exact (List.filter_eq_nil_iff.2 fun _ _ => Bool.false_ne_true).symm
  | some .info => exact List.filter_congr fun entry _ => by cases entry.severity <;> rfl
  | some .debug => exact List.filter_congr fun entry _ => by cases entry.severity <;> rfl
  | some .trace =>
    exact (List.filter_eq_self.2 fun entry _ => by cases entry.severity <;> rfl).symm

theorem admitted_append (log log' : Log) :
    admitted verbosity (log ++ log') = admitted verbosity log ++ admitted verbosity log' := by
  simp only [admitted_eq_filter, List.filter_append]

theorem traced_append (log log' : Log) : traced (log ++ log') = traced log ++ traced log' := by
  rw [traced, List.filter_append, List.map_append]
  rfl

/-- A message that is emitted is one that is kept of the whole log. -/
theorem admitted_singleton (severity : Severity) (message : String) :
    admitted verbosity [⟨severity, message⟩] = verbosity.emit severity message := by
  rw [admitted_eq_filter, Verbosity.emit, List.filter_singleton, cond_eq_ite]

theorem admitted_trace (log : Log) : admitted (some .trace) log = log := rfl

theorem traced_of_ne {log : Log} (h : ∀ entry ∈ log, entry.severity ≠ .trace) :
    traced log = [] := by
  rw [traced, List.filter_eq_nil_iff.2 fun entry hentry => by simpa using h entry hentry]
  rfl

end Log

/-! ### The log of a word -/

/-- An operation logs one message at most, and none that traces. -/
theorem Store.log_apply (word : Word) (s : Store) :
    ∃ notes : Log, (∀ entry ∈ notes, entry.severity ≠ .trace) ∧
      ∀ verbosity, (s.apply verbosity word).log = Log.admitted verbosity notes := by
  have hone : ∀ message, ∀ entry ∈ [Entry.mk .debug message], entry.severity ≠ .trace := by simp
  unfold apply Operation.ofOpcode?
  dsimp only
  cases Kind.ofOpcode? (Word.opcode word) with
  | none => exact ⟨_, hone _, fun _ => (Log.admitted_singleton _ _).symm⟩
  | some kind =>
    cases kind with
    | nop | jeq | jgt => exact ⟨_, hone _, fun _ => (Log.admitted_singleton _ _).symm⟩
    | _ => exact ⟨[], by simp, fun verbosity => (Log.admitted_nil verbosity).symm⟩

namespace Machine

theorem haltLog_eq (word : Word) (status : Status) :
    ∃ notes : Log, (∀ entry ∈ notes, entry.severity ≠ .trace) ∧
      ∀ verbosity, haltLog verbosity word status = Log.admitted verbosity notes := by
  cases status with
  | normal => exact ⟨[], by simp, fun verbosity => (Log.admitted_nil verbosity).symm⟩
  | halted => exact ⟨_, by simp, fun _ => (Log.admitted_singleton .info _).symm⟩

/-- A word is announced before anything else is logged of it, and nothing else traces. -/
theorem log_execute (word : Word) (m : Machine) :
    ∃ notes : Log, (∀ entry ∈ notes, entry.severity ≠ .trace) ∧
      ∀ verbosity, (m.execute verbosity word).log =
        Log.admitted verbosity (⟨.trace, m.announcement word⟩ :: notes) := by
  obtain ⟨first, hfirst, hlog⟩ := m.toStore.log_apply word
  obtain ⟨last, hlast, hhalt⟩ := haltLog_eq word (m.execute none word).status
  refine ⟨first ++ last, ?_, fun verbosity => ?_⟩
  · intro entry hentry
    exact (List.mem_append.1 hentry).elim (hfirst entry) (hlast entry)
  · have hstatus : (m.toStore.apply verbosity word).status = (m.execute none word).status :=
      status_execute_congr verbosity none word m
    rw [execute, hlog, hstatus, hhalt, ← Log.admitted_singleton, ← Log.admitted_append,
      ← Log.admitted_append]
    rfl

variable {verbosity : Verbosity} {word : Word} {m : Machine}

theorem log_execute_eq : (m.execute verbosity word).log =
    Log.admitted verbosity (m.execute (some .trace) word).log := by
  obtain ⟨notes, -, hlog⟩ := m.log_execute word
  rw [hlog, hlog, Log.admitted_trace]

theorem traced_execute :
    Log.traced (m.execute (some .trace) word).log = [m.announcement word] := by
  obtain ⟨notes, hnotes, hlog⟩ := m.log_execute word
  rw [hlog, Log.admitted_trace, ← List.singleton_append, Log.traced_append,
    Log.traced_of_ne hnotes]
  rfl

end Machine

end ByteMachine
