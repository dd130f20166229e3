import ByteMachine.Machine.Execute
import Mathlib.Data.List.Forall2

/-! Runs as lists of steps. A run executes the words of its items up to and including the first that
halts, and may do something to the machine between two of them. Its end and its summary are read off
its steps. If every step of one run is matched by a step of another, so are their ends. -/

namespace ByteMachine

/-- An executed item with the machine before it and what executing its word gave. -/
structure Step (α : Type) where
  item : α
  before : Machine
  outcome : Outcome Machine

namespace Step

variable {α β : Type}

def after (step : Step α) : Machine := step.outcome.state

def status (step : Step α) : Status := step.outcome.status

def halts (step : Step α) : Bool := step.status == .halted

/-- The summary of a run with the given steps. -/
def summary (steps : List (Step α)) : Summary := ⟨steps.length, steps.any halts⟩

/-- The end of a run that starts with `m`, where `between` is done after every step. -/
def final (between : Machine → Machine) (m : Machine) (steps : List (Step α)) : Machine :=
  match steps.getLast? with
  | none => m
  | some step => between step.after

/-- Steps that match: the items, the machines before and after, and the statuses do. -/
structure Matches (W : α → β → Prop) (R : Machine → Machine → Prop) (s : Step α) (t : Step β) :
    Prop where
  item : W s.item t.item
  before : R s.before t.before
  after : R s.after t.after
  status : s.status = t.status

theorem halts_of_status {step : Step α} (h : step.status = .halted) : step.halts = true :=
  beq_iff_eq.2 h

theorem not_halts_of_status {step : Step α} (h : step.status = .normal) : step.halts = false := by
  rw [halts, h]
  rfl

variable {W : α → β → Prop} {R : Machine → Machine → Prop} {ss : List (Step α)}
  {ts : List (Step β)}

theorem statuses_eq (h : List.Forall₂ (Matches W R) ss ts) : ss.map status = ts.map status := by
  induction h with
  | nil => rfl
  | cons hst _ ih => rw [List.map_cons, List.map_cons, hst.status, ih]

theorem summary_eq (h : List.Forall₂ (Matches W R) ss ts) : summary ss = summary ts := by
  have hany : ∀ {γ : Type} (us : List (Step γ)),
      us.any halts = (us.map status).any (· == .halted) := by
    intro γ us
    rw [List.any_map]
    rfl
  rw [summary, summary, h.length_eq, hany, hany, statuses_eq h]

theorem final_cons (between : Machine → Machine) (m : Machine) (step : Step α)
    (steps : List (Step α)) :
    final between m (step :: steps) = final between (between step.after) steps := by
  unfold final
  rw [List.getLast?_cons]
  cases steps.getLast? <;> rfl

theorem exists_final (between : Machine → Machine) (m : Machine) {steps : List (Step α)}
    (h : steps ≠ []) : ∃ m', final between m steps = between m' := by
  rw [final, List.getLast?_eq_some_getLast h]
  exact ⟨_, rfl⟩

theorem final_related {between between' : Machine → Machine}
    (hbetween : ∀ m m', R m m' → R (between m) (between' m'))
    (h : List.Forall₂ (Matches W R) ss ts) {m m' : Machine} (hm : R m m') :
    R (final between m ss) (final between' m' ts) := by
  induction h generalizing m m' with
  | nil => exact hm
  | cons hst _ ih =>
    rw [final_cons, final_cons]
    exact ih (hbetween _ _ hst.after)

end Step

namespace Machine

variable {α β : Type}

/-- The steps of executing the words of items in turn, with `between` after each. -/
def trace (verbosity : Verbosity) (between : Machine → Machine) (word : α → Word) :
    List α → Machine → List (Step α)
  | [], _ => []
  | item :: items, m =>
    let outcome := m.execute verbosity (word item)
    ⟨item, m, outcome⟩ ::
      match outcome.status with
      | .halted => []
      | .normal => trace verbosity between word items (between outcome.state)

variable {verbosity : Verbosity} {between : Machine → Machine} {word : α → Word}

theorem trace_cons_halted {item : α} {m : Machine}
    (h : (m.execute verbosity (word item)).status = .halted) (items : List α) :
    trace verbosity between word (item :: items) m =
      [⟨item, m, m.execute verbosity (word item)⟩] := by
  simp only [trace, h]

theorem trace_cons_normal {item : α} {m : Machine}
    (h : (m.execute verbosity (word item)).status = .normal) (items : List α) :
    trace verbosity between word (item :: items) m =
      ⟨item, m, m.execute verbosity (word item)⟩ ::
        trace verbosity between word items (between (m.execute verbosity (word item)).state) := by
  simp only [trace, h]

theorem trace_ne_nil {items : List α} (h : items ≠ []) (m : Machine) :
    trace verbosity between word items m ≠ [] := by
  cases items with
  | nil => exact absurd rfl h
  | cons item items => exact List.cons_ne_nil _ _

theorem items_trace (items : List α) (m : Machine) :
    (trace verbosity between word items m).map Step.item =
      items.take (trace verbosity between word items m).length := by
  induction items generalizing m with
  | nil => rfl
  | cons item items ih =>
    cases h : (m.execute verbosity (word item)).status with
    | halted =>
      rw [trace_cons_halted h]
      rfl
    | normal =>
      rw [trace_cons_normal h, List.map_cons, List.length_cons, List.take_succ_cons, ih]

/-- A step executes its word, on the first machine or on what `between` made of another. -/
theorem of_mem_trace {items : List α} {m : Machine} {step : Step α}
    (h : step ∈ trace verbosity between word items m) :
    step.outcome = step.before.execute verbosity (word step.item) ∧
      (step.before = m ∨ ∃ m', step.before = between m') := by
  induction items generalizing m with
  | nil => cases h
  | cons item items ih =>
    cases hstatus : (m.execute verbosity (word item)).status with
    | halted =>
      rw [trace_cons_halted hstatus, List.mem_singleton] at h
      subst h
      exact ⟨rfl, .inl rfl⟩
    | normal =>
      rw [trace_cons_normal hstatus, List.mem_cons] at h
      rcases h with rfl | h
      · exact ⟨rfl, .inl rfl⟩
      · obtain ⟨houtcome, hbefore⟩ := ih h
        refine ⟨houtcome, .inr ?_⟩
        rcases hbefore with heq | hbetween
        · exact ⟨_, heq⟩
        · exact hbetween

/-- A step that halts is the last. -/
theorem find?_halts_trace (items : List α) (m : Machine) :
    let steps := trace verbosity between word items m
    steps.find? Step.halts = steps.getLast?.filter Step.halts := by
  induction items generalizing m with
  | nil => rfl
  | cons item items ih =>
    dsimp only
    cases h : (m.execute verbosity (word item)).status with
    | halted =>
      have hhalts : Step.halts ⟨item, m, m.execute verbosity (word item)⟩ = true :=
        Step.halts_of_status h
      rw [trace_cons_halted h, List.find?_cons_of_pos hhalts]
      exact (Option.filter_some_pos hhalts).symm
    | normal =>
      have hhalts : Step.halts ⟨item, m, m.execute verbosity (word item)⟩ = false :=
        Step.not_halts_of_status h
      rw [trace_cons_normal h, List.find?_cons_of_neg (Bool.eq_false_iff.1 hhalts), ih,
        List.getLast?_cons]
      cases (trace verbosity between word items _).getLast? with
      | none => exact (Option.filter_some_neg hhalts).symm
      | some step => rfl

/-- Executing words is what its steps say. -/
theorem executeWords_eq_trace (verbosity : Verbosity) (words : List Word) (m : Machine) :
    let steps := trace verbosity id id words m
    m.executeWords verbosity words =
      ⟨Step.final id m steps, Step.summary steps, steps.flatMap fun step => step.outcome.log⟩ := by
  induction words generalizing m with
  | nil => rfl
  | cons word words ih =>
    cases h : (m.execute verbosity word).status with
    | halted =>
      have hid : (m.execute verbosity (id word)).status = .halted := h
      rw [trace_cons_halted hid, executeWords_cons_halted h]
      simp [h, Step.final, Step.summary, Step.halts, Step.status, Step.after]
    | normal =>
      have hid : (m.execute verbosity (id word)).status = .normal := h
      rw [trace_cons_normal hid, executeWords_cons_normal h]
      simp [h, ih, Step.final_cons, Step.summary, Step.halts, Step.status, Step.after]

theorem trace_matches {verbosity' : Verbosity} {between' : Machine → Machine} {word' : β → Word}
    {W : α → β → Prop} {R : Machine → Machine → Prop}
    (hstep : ∀ a b m m', W a b → R m m' →
      (m.execute verbosity (word a)).status = (m'.execute verbosity' (word' b)).status ∧
      R (m.execute verbosity (word a)).state (m'.execute verbosity' (word' b)).state)
    (hbetween : ∀ m m', R m m' → R (between m) (between' m'))
    {as : List α} {bs : List β} (hitems : List.Forall₂ W as bs) {m m' : Machine} (hm : R m m') :
    List.Forall₂ (Step.Matches W R) (trace verbosity between word as m)
      (trace verbosity' between' word' bs m') := by
  induction hitems generalizing m m' with
  | nil => exact .nil
  | @cons a b as bs hab _ ih =>
    obtain ⟨hstatus, hstate⟩ := hstep a b m m' hab hm
    have hmatch : Step.Matches W R ⟨a, m, m.execute verbosity (word a)⟩
        ⟨b, m', m'.execute verbosity' (word' b)⟩ := ⟨hab, hm, hstate, hstatus⟩
    cases h : (m.execute verbosity (word a)).status with
    | halted =>
      rw [trace_cons_halted h, trace_cons_halted (hstatus.symm.trans h)]
      exact .cons hmatch .nil
    | normal =>
      rw [trace_cons_normal h, trace_cons_normal (hstatus.symm.trans h)]
      exact .cons hmatch (ih (hbetween _ _ hstate))

end Machine

end ByteMachine
