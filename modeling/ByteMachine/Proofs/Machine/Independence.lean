import ByteMachine.Proofs.Machine.Difference

/-! Which cells a word reads and which cell it writes. What a word does depends on the cells that it
reads, and every cell but the one it writes stays as it is. So the order of two words does not
matter if neither writes a cell that the other reads or writes. -/

namespace ByteMachine

namespace Word

/-! ### Footprints -/

/-- The cells that the word reads. -/
def reads (word : Word) : List Place :=
  let a := Place.register (field word 8 4)
  let b := Place.register (field word 4 4)
  let c := Place.register (field word 0 4)
  match field word 12 4 with
  | 1 => [.memory (field word 0 8)]
  | 3 | 10 | 11 | 13 => [a]
  | 4 => [c]
  | 5 | 6 | 7 | 8 | 9 => [b, c]
  | _ => []

/-- The cell that the word writes. -/
def written? (word : Word) : Option Place :=
  match field word 12 4 with
  | 1 | 2 | 4 | 5 | 6 | 7 | 8 | 9 | 10 => some (.register (field word 8 4))
  | 3 => some (.memory (field word 0 8))
  | _ => none

/-- The word writes no cell that the other one reads or writes. -/
def Spares (word other : Word) : Prop :=
  ∀ place ∈ word.written?, place ∉ other.reads ∧ place ∉ other.written?

instance (word other : Word) : Decidable (word.Spares other) :=
  inferInstanceAs (Decidable (∀ place ∈ word.written?, _))

/-- Neither word writes a cell that the other one reads or writes. -/
def Independent (word other : Word) : Prop := word.Spares other ∧ other.Spares word

instance (word other : Word) : Decidable (word.Independent other) :=
  inferInstanceAs (Decidable (_ ∧ _))

end Word

namespace Store

/-! ### A word depends on what it reads -/

variable {word : Word} {s t : Store}

theorem effect?_eq_of_reads (h : ∀ place ∈ word.reads, s.value place = t.value place) :
    s.effect? word = t.effect? word := by
  have hregister (index : Nat) (hmem : .register index ∈ word.reads) :
      s.registers.read index = t.registers.read index := h (.register index) hmem
  have hmemory (address : Nat) (hmem : .memory address ∈ word.reads) :
      s.memory.read address = t.memory.read address := h (.memory address) hmem
  unfold effect?
  unfold Word.reads at hregister hmemory
  have hlt : Word.field word 12 4 < 16 := Word.field_lt word 12 4
  generalize Word.field word 12 4 = opcode at hregister hmemory hlt ⊢
  match opcode, hlt with
  | 0, _ | 2, _ | 11, _ | 12, _ | 13, _ | 14, _ | 15, _ => simp only
  | 1, _ => simp only [hmemory (Word.field word 0 8) (by simp)]
  | 3, _ | 10, _ => simp only [hregister (Word.field word 8 4) (by simp)]
  | 4, _ => simp only [hregister (Word.field word 0 4) (by simp)]
  | 5, _ | 6, _ | 7, _ | 8, _ | 9, _ =>
    simp only [hregister (Word.field word 4 4) (by simp),
      hregister (Word.field word 0 4) (by simp)]
  | _ + 16, hlt => exact absurd hlt (by omega)

theorem log_apply_eq_of_reads (h : ∀ place ∈ word.reads, s.value place = t.value place)
    (verbosity : Verbosity) : (s.apply verbosity word).log = (t.apply verbosity word).log := by
  -- of the operations only the conditions log something that depends on the cells
  have hcondition {kind : Kind} (hkind : Kind.ofOpcode? (Word.opcode word) = some kind)
      (hjump : kind = .jeq ∨ kind = .jgt) :
      s.registers.read (Word.regA word) = t.registers.read (Word.regA word) := by
    have hopcode := Kind.opcode_of_ofOpcode? hkind
    rw [Word.opcode_eq_field] at hopcode
    rw [Word.regA_eq_field]
    refine h (.register (Word.field word 8 4)) ?_
    rcases hjump with rfl | rfl <;> simp [Word.reads, ← hopcode, Kind.opcode]
  unfold apply Operation.ofOpcode?
  dsimp only
  cases hkind : Kind.ofOpcode? (Word.opcode word) with
  | none => rfl
  | some kind =>
    cases kind with
    | jeq =>
      have hread := hcondition hkind (.inl rfl)
      simp only [Option.bind_some, Operation.ofKind?, Operation.jumpIfEqual, Operation.condition,
        hread]
    | jgt =>
      have hread := hcondition hkind (.inr rfl)
      simp only [Option.bind_some, Operation.ofKind?, Operation.jumpIfGreater, Operation.condition,
        hread]
    | _ => rfl

/-! ### A word changes what it writes -/

theorem map_fst_effect? (word : Word) (s : Store) :
    (s.effect? word).map Prod.fst = word.written? := by
  unfold effect? Word.written?
  have hlt : Word.field word 12 4 < 16 := Word.field_lt word 12 4
  generalize Word.field word 12 4 = opcode at hlt ⊢
  match opcode, hlt with
  | 0, _ | 1, _ | 2, _ | 3, _ | 4, _ | 5, _ | 6, _ | 7, _ => rfl
  | 8, _ | 9, _ | 10, _ | 11, _ | 12, _ | 13, _ | 14, _ | 15, _ => rfl
  | _ + 16, hlt => exact absurd hlt (by omega)

theorem value_apply_of_not_written {place : Place} (h : place ∉ word.written?)
    (verbosity : Verbosity) (s : Store) :
    (s.apply verbosity word).state.value place = s.value place := by
  rw [value_apply]
  cases heffect : s.effect? word with
  | none => rfl
  | some effect =>
    refine Function.update_of_ne (fun heq => h ?_) _ _
    rw [← map_fst_effect? word s, heffect, heq]
    rfl

/-- Effects on different places do not depend on their order. -/
theorem perform_comm {e e' : Option (Place × Byte)}
    (h : ∀ place ∈ e.map Prod.fst, place ∉ e'.map Prod.fst) (s : Store) :
    (s.perform e).perform e' = (s.perform e').perform e := by
  cases e with
  | none => rfl
  | some effect =>
    cases e' with
    | none => rfl
    | some effect' =>
      exact s.put_comm effect.2 effect'.2 fun heq => h effect.1 rfl (congrArg some heq.symm)

end Store

namespace Machine

variable {word other : Word}

/-! ### Two words -/

/-- A word has the same effect, status and log before and after one that spares it. -/
theorem execute_of_spares (h : word.Spares other) (verbosity : Verbosity) (m : Machine) :
    let after := (m.execute verbosity word).state
    after.effect? other = m.effect? other ∧
    (after.execute verbosity other).status = (m.execute verbosity other).status ∧
    (after.execute verbosity other).log = (m.execute verbosity other).log := by
  intro after
  have hreads : ∀ place ∈ other.reads, after.value place = m.value place := fun place hplace =>
    Store.value_apply_of_not_written (fun hwritten => (h place hwritten).1 hplace) verbosity _
  have hstatus := Store.status_apply_congr verbosity verbosity other after.toStore m.toStore
  refine ⟨Store.effect?_eq_of_reads hreads, hstatus, ?_⟩
  unfold execute
  dsimp only
  rw [Store.log_apply_eq_of_reads hreads, hstatus]
  rfl

/-- The store after both words has both effects, each as it is on the machine before them. -/
theorem toStore_execute_execute (h : word.Spares other) (verbosity : Verbosity) (m : Machine) :
    ((m.execute verbosity word).state.execute verbosity other).state.toStore =
      (m.perform (m.effect? word)).perform (m.effect? other) := by
  have hfirst : (m.execute verbosity word).state.toStore = m.perform (m.effect? word) :=
    Store.apply_eq_perform verbosity word m.toStore
  have heffect := (execute_of_spares h verbosity m).1
  calc ((m.execute verbosity word).state.execute verbosity other).state.toStore
      = (m.execute verbosity word).state.perform
          ((m.execute verbosity word).state.effect? other) :=
        Store.apply_eq_perform verbosity other _
    _ = (m.perform (m.effect? word)).perform (m.effect? other) := by rw [heffect, hfirst]

/-- The order of independent words does not matter: it leaves every cell with the same value and the
same pending change, and each word halts or not and logs as it does in the other order. -/
theorem independent_words_commute (h : word.Independent other) (verbosity : Verbosity)
    (m : Machine) :
    let first := m.execute verbosity word
    let second := first.state.execute verbosity other
    let first' := m.execute verbosity other
    let second' := first'.state.execute verbosity word
    second.state.registers = second'.state.registers ∧
    second.state.memory = second'.state.memory ∧
    second.state.pc = second'.state.pc ∧
    (first.status = second'.status ∧ first.log = second'.log) ∧
    second.status = first'.status ∧ second.log = first'.log := by
  intro first second first' second'
  have hplaces : ∀ place ∈ (m.effect? word).map Prod.fst,
      place ∉ (m.effect? other).map Prod.fst := by
    rw [Store.map_fst_effect?, Store.map_fst_effect?]
    exact fun place hplace => (h.1 place hplace).2
  have hstore : second.state.toStore = second'.state.toStore :=
    calc second.state.toStore
        = (m.perform (m.effect? word)).perform (m.effect? other) :=
          toStore_execute_execute h.1 verbosity m
      _ = (m.perform (m.effect? other)).perform (m.effect? word) :=
          Store.perform_comm hplaces m.toStore
      _ = second'.state.toStore := (toStore_execute_execute h.2 verbosity m).symm
  obtain ⟨-, hstatus, hlog⟩ := execute_of_spares h.1 verbosity m
  obtain ⟨-, hstatus', hlog'⟩ := execute_of_spares h.2 verbosity m
  have hpc : second.state.pc = second'.state.pc :=
    calc second.state.pc
        = m.pc := rfl
      _ = second'.state.pc := rfl
  exact ⟨congrArg Store.registers hstore, congrArg Store.memory hstore, hpc,
    ⟨hstatus'.symm, hlog'.symm⟩, hstatus, hlog⟩

/-- One word takes back a change that is pending and the other stores another register. Were it the
same register, the order would matter. -/
theorem independent_words_commute_on_pending :
    let m := Machine.zero.mapStore fun s => (s.setRegister 1 5).setRegister 2 7
    let after := ((m.execute none 0x2100).state.execute none 0x3210).state
    let after' := ((m.execute none 0x3210).state.execute none 0x2100).state
    Word.Independent 0x2100 0x3210 ∧
    ¬ Word.Independent 0x2200 0x3210 ∧
    after.registers = after'.registers ∧
    after.memory = after'.memory ∧
    after.registers.pending = [(2, ⟨0, 7⟩)] := by
  intro m after after'
  have h : Word.Independent 0x2100 0x3210 := by decide
  obtain ⟨hregisters, hmemory, -⟩ := independent_words_commute h none m
  exact ⟨h, by decide, hregisters, hmemory, by decide +kernel⟩

end Machine

end ByteMachine
