import ByteMachine.Console.Arguments

/-! What a read of arguments comes to: the value it gives, from which words, and what it leaves. A
read that needs a word takes exactly one. Reading alone never finds an index out of range. -/

namespace ByteMachine.Console.Arguments

variable {α β : Type}

/-! ### Values -/

theorem pure_eq_ok_iff {value value' : α} {before after : Arguments} :
    (pure value : Reader α) before = (.ok value', after) ↔ value = value' ∧ before = after := by
  change ((Except.ok value, before) : Except CommandError α × Arguments) = _ ↔ _
  simp

theorem bind_of_ok {reader : Reader α} {next : α → Reader β} {value : α}
    {before after : Arguments} (h : reader before = (.ok value, after)) :
    (reader >>= next) before = next value after := by
  change ExceptT.bindCont next (reader before).1 (reader before).2 = _
  rw [h]
  rfl

theorem bind_of_error {reader : Reader α} {next : α → Reader β} {e : CommandError}
    {before after : Arguments} (h : reader before = (.error e, after)) :
    (reader >>= next) before = (.error e, after) := by
  change ExceptT.bindCont next (reader before).1 (reader before).2 = _
  rw [h]
  rfl

theorem bind_eq_ok_iff {reader : Reader α} {next : α → Reader β} {value : β}
    {before after : Arguments} :
    (reader >>= next) before = (.ok value, after) ↔
      ∃ first mid, reader before = (.ok first, mid) ∧ next first mid = (.ok value, after) := by
  constructor
  · intro h
    cases hread : reader before with
    | mk result mid =>
      cases result with
      | ok first => exact ⟨first, mid, rfl, (bind_of_ok hread).symm.trans h⟩
      | error e => cases (bind_of_error hread).symm.trans h
  · rintro ⟨first, mid, hread, h⟩
    exact (bind_of_ok hread).trans h

theorem next_eq_ok_iff {arg : String} {before after : Arguments} :
    next before = (.ok arg, after) ↔
      before.remaining = arg :: after.remaining ∧ after.reads = before.reads + 1 := by
  obtain ⟨remaining, reads⟩ := before
  obtain ⟨remaining', reads'⟩ := after
  cases remaining with
  | nil =>
    change ((Except.error _, _) : Except CommandError String × Arguments) = _ ↔ _
    simp
  | cons word words =>
    change ((Except.ok word, ⟨words, reads + 1⟩) : Except CommandError String × Arguments) = _ ↔ _
    simp [eq_comm, and_assoc]

theorem interpret_eq_ok_iff {form : Form α} {arg : String} {value : α} {before after : Arguments} :
    interpret form arg before = (.ok value, after) ↔ form arg = .ok value ∧ before = after := by
  rw [interpret]
  cases form arg with
  | ok value' => simpa using pure_eq_ok_iff
  | error fault =>
    change ((Except.error _, _) : Except CommandError α × Arguments) = _ ↔ _
    simp

theorem nextAs_eq_ok_iff {form : Form α} {value : α} {before after : Arguments} :
    nextAs form before = (.ok value, after) ↔
      ∃ arg, form arg = .ok value ∧ before.remaining = arg :: after.remaining ∧
        after.reads = before.reads + 1 := by
  rw [nextAs, bind_eq_ok_iff]
  constructor
  · rintro ⟨arg, mid, hnext, h⟩
    obtain ⟨hform, rfl⟩ := interpret_eq_ok_iff.1 h
    exact ⟨arg, hform, next_eq_ok_iff.1 hnext⟩
  · rintro ⟨arg, hform, hnext⟩
    exact ⟨arg, after, next_eq_ok_iff.2 hnext, interpret_eq_ok_iff.2 ⟨hform, rfl⟩⟩

theorem nextAs_of_ok {form : Form α} {arg : String} {value : α} (h : form arg = .ok value)
    (rest : List String) (reads : Nat) :
    nextAs form ⟨arg :: rest, reads⟩ = (.ok value, ⟨rest, reads + 1⟩) :=
  nextAs_eq_ok_iff.2 ⟨arg, h, rfl, rfl⟩

/-- An optional argument is left out only if no word is left. -/
theorem nextAsOptional_eq_ok_iff {form : Form α} {value? : Option α} {before after : Arguments} :
    nextAsOptional form before = (.ok value?, after) ↔
      (value? = none ∧ before.remaining = [] ∧ after = ⟨[], before.reads + 1⟩) ∨
        ∃ value, value? = some value ∧ nextAs form before = (.ok value, after) := by
  obtain ⟨remaining, reads⟩ := before
  cases remaining with
  | nil =>
    change ((Except.ok none, ⟨[], reads + 1⟩) : Except CommandError (Option α) × Arguments) = _ ↔ _
    constructor
    · intro h
      cases h
      exact .inl ⟨rfl, rfl, rfl⟩
    · rintro (⟨rfl, -, rfl⟩ | ⟨value, -, hread⟩)
      · rfl
      · obtain ⟨arg, -, hnil, -⟩ := nextAs_eq_ok_iff.1 hread
        cases hnil
  | cons word words =>
    have hoptional : nextAsOptional form ⟨word :: words, reads⟩ =
        (interpret form word >>= fun value => pure (some value)) ⟨words, reads + 1⟩ := rfl
    have hnext : nextAs form ⟨word :: words, reads⟩ = interpret form word ⟨words, reads + 1⟩ := rfl
    rw [hoptional, hnext, bind_eq_ok_iff]
    constructor
    · rintro ⟨value, mid, hread, h⟩
      obtain ⟨rfl, rfl⟩ := pure_eq_ok_iff.1 h
      exact .inr ⟨value, rfl, hread⟩
    · rintro (⟨-, hnil, -⟩ | ⟨value, rfl, hread⟩)
      · cases hnil
      · exact ⟨value, after, hread, pure_eq_ok_iff.2 ⟨rfl, rfl⟩⟩

theorem nextAsOptional_of_ok {form : Form α} {arg : String} {value : α} (h : form arg = .ok value)
    (rest : List String) (reads : Nat) :
    nextAsOptional form ⟨arg :: rest, reads⟩ = (.ok (some value), ⟨rest, reads + 1⟩) :=
  nextAsOptional_eq_ok_iff.2 (.inr ⟨value, rfl, nextAs_of_ok h rest reads⟩)

theorem finish_eq_ok_iff {done : Unit} {before after : Arguments} :
    finish before = (.ok done, after) ↔ before.remaining = [] ∧ before = after := by
  obtain ⟨remaining, reads⟩ := before
  cases remaining with
  | nil =>
    change ((Except.ok (), ⟨[], reads⟩) : Except CommandError Unit × Arguments) = _ ↔ _
    simp
  | cons word words =>
    change ((Except.error _, _) : Except CommandError Unit × Arguments) = _ ↔ _
    simp

/-! ### Errors -/

/-- No word makes the reader find an index out of range. -/
def NoRangeCheck (reader : Reader α) : Prop :=
  ∀ before index size, (reader before).1 ≠ .error (.outOfRange index size)

theorem noRangeCheck_pure (value : α) : NoRangeCheck (pure value) := by
  intro before index size h
  cases h

theorem noRangeCheck_unknownCommand (name : String) :
    NoRangeCheck (throw (.unknownCommand name) : Reader α) := by
  intro before index size h
  cases h

theorem NoRangeCheck.bind {reader : Reader α} (h : NoRangeCheck reader) {next : α → Reader β}
    (hnext : ∀ value, NoRangeCheck (next value)) : NoRangeCheck (reader >>= next) := by
  intro before index size
  have hbefore := h before index size
  cases hread : reader before with
  | mk result mid =>
    cases result with
    | ok value =>
      rw [bind_of_ok hread]
      exact hnext value mid index size
    | error e =>
      rw [bind_of_error hread]
      intro heq
      cases heq
      rw [hread] at hbefore
      exact hbefore rfl

theorem noRangeCheck_next : NoRangeCheck next := by
  rintro ⟨remaining, reads⟩ index size h
  cases remaining <;> cases h

theorem noRangeCheck_interpret (form : Form α) (arg : String) :
    NoRangeCheck (interpret form arg) := by
  intro before index size h
  rw [interpret] at h
  cases hform : form arg <;> rw [hform] at h <;> cases h

theorem noRangeCheck_nextAs (form : Form α) : NoRangeCheck (nextAs form) :=
  noRangeCheck_next.bind (noRangeCheck_interpret form)

theorem noRangeCheck_nextAsOptional (form : Form α) : NoRangeCheck (nextAsOptional form) := by
  rintro ⟨remaining, reads⟩
  cases remaining with
  | nil => exact noRangeCheck_pure (none : Option α) ⟨[], reads + 1⟩
  | cons word words =>
    exact ((noRangeCheck_interpret form word).bind fun value => noRangeCheck_pure (some value))
      ⟨words, reads + 1⟩

theorem noRangeCheck_finish : NoRangeCheck finish := by
  rintro ⟨remaining, reads⟩ index size h
  cases remaining <;> cases h

end ByteMachine.Console.Arguments
