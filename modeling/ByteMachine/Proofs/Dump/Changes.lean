import ByteMachine.Proofs.Program.ReportReader

/-! What a report tells. The changes that it lists can be read back, whatever the width of their
numbers. So lists of changes are reported alike only if they are equal, even when those of registers
and of memory follow one another without a mark between them, and registers are shown alike only if
they hold the same. -/

namespace ByteMachine.Dump

open Program Text

/-! ### Lists of changes -/

/-- The report on changes of any cells, in the given order. -/
def placeChanges (entries : List (Place × Change)) : String :=
  String.join (entries.map changeLine)

theorem readChanges_placeChanges (entries : List (Place × Change)) :
    readChanges (placeChanges entries) = entries := by
  have hlines : ∀ line ∈ entries.map changeLine, IsLine line := by
    intro line hline
    obtain ⟨entry, -, rfl⟩ := List.mem_map.1 hline
    exact isLine_changeLine entry
  rw [placeChanges, readChanges_join hlines, filterMap_readChangeLine]

theorem placeChanges_inj {entries entries' : List (Place × Change)}
    (h : placeChanges entries = placeChanges entries') : entries = entries' := by
  rw [← readChanges_placeChanges entries, h, readChanges_placeChanges]

/-- Changes of registers and of memory as changes of cells. -/
def entries (registers memory : List (Nat × Change)) : List (Place × Change) :=
  registers.map (fun entry => (.register entry.1, entry.2)) ++
    memory.map fun entry => (.memory entry.1, entry.2)

/-- The number and the change of a register. -/
def registerEntry? : Place × Change → Option (Nat × Change)
  | (.register register, c) => some (register, c)
  | (.memory _, _) => none

/-- The address and the change of a cell of memory. -/
def memoryEntry? : Place × Change → Option (Nat × Change)
  | (.register _, _) => none
  | (.memory address, c) => some (address, c)

theorem filterMap_registerEntry?_entries (registers memory : List (Nat × Change)) :
    (entries registers memory).filterMap registerEntry? = registers := by
  simp [entries, registerEntry?, Function.comp_def]

theorem filterMap_memoryEntry?_entries (registers memory : List (Nat × Change)) :
    (entries registers memory).filterMap memoryEntry? = memory := by
  simp [entries, memoryEntry?, Function.comp_def]

theorem entries_inj {registers registers' memory memory' : List (Nat × Change)}
    (h : entries registers memory = entries registers' memory') :
    registers = registers' ∧ memory = memory' := by
  constructor
  · rw [← filterMap_registerEntry?_entries registers memory, h, filterMap_registerEntry?_entries]
  · rw [← filterMap_memoryEntry?_entries registers memory, h, filterMap_memoryEntry?_entries]

theorem changes_eq_placeChanges (registers memory : List (Nat × Change)) :
    registerChanges registers ++ memoryChanges memory =
      placeChanges (entries registers memory) := by
  rw [registerChanges_eq, memoryChanges_eq, placeChanges, entries, List.map_append,
    String.join_append, List.map_map, List.map_map]
  rfl

/-! ### Registers in print -/

/-- The line of a register. -/
def registerLine (register : Nat) (value : Byte) : String :=
  s!"R{register}: {Numeral.byte value}\n"

theorem isLine_registerLine (register : Nat) (value : Byte) :
    IsLine (registerLine register value) := by
  have hregister := Numeral.newline_notMem_toDigits register
  have hvalue := Numeral.newline_notMem_hex 2 value.toNat
  exact isLine_append_newline (by simp [toString, Numeral.byte, hregister, hvalue])

theorem registerLine_inj {register : Nat} {value value' : Byte}
    (h : registerLine register value = registerLine register value') : value = value' := by
  rw [registerLine, registerLine, String.append_left_inj, String.append_right_inj] at h
  exact Numeral.byte_inj h

theorem registers_inj {size : Nat} {m m' : Memory size} (h : registers m = registers m') :
    m.toList = m'.toList := by
  have hlines (m : Memory size) :
      ∀ line ∈ (List.range size).map fun register => registerLine register (m.read register),
        IsLine line := by
    intro line hline
    obtain ⟨register, -, rfl⟩ := List.mem_map.1 hline
    exact isLine_registerLine register _
  have hread : ∀ register < size, m.read register = m'.read register := fun register hregister =>
    registerLine_inj (List.map_inj_left.1 (join_inj (hlines m) (hlines m') h) register
      (List.mem_range.2 hregister))
  refine List.ext_getElem (by rw [Memory.length_toList, Memory.length_toList]) fun i hi hi' => ?_
  rw [Memory.getElem_toList, Memory.getElem_toList, hread i (by rwa [Memory.length_toList] at hi)]

theorem registers_congr {size : Nat} {m m' : Memory size} (h : m.toList = m'.toList) :
    registers m = registers m' := by
  have hread : m.read = m'.read := funext fun register => by
    rw [← Memory.getD_toList, h, Memory.getD_toList]
  rw [registers, registers, hread]

/-! ### Reports tell what they report -/

/-- Lists of changes are equal if they are reported alike, those of registers and those of memory
also where the reports stand one behind the other, as they do after an instruction. Registers that
are shown alike have equal cells. -/
theorem texts_determine_changes_and_cells :
    (∀ changes changes', registerChanges changes = registerChanges changes' ↔
      changes = changes') ∧
    (∀ changes changes', memoryChanges changes = memoryChanges changes' ↔ changes = changes') ∧
    (∀ registers registers' memory memory',
      registerChanges registers ++ memoryChanges memory =
          registerChanges registers' ++ memoryChanges memory' ↔
        registers = registers' ∧ memory = memory') ∧
    (∀ s s' : Store, Program.changes s = Program.changes s' ↔
      s.registers.drain.1 = s'.registers.drain.1 ∧ s.memory.drain.1 = s'.memory.drain.1) ∧
    ∀ (size : Nat) (m m' : Memory size), registers m = registers m' ↔ m.toList = m'.toList := by
  have hboth (registers registers' memory memory' : List (Nat × Change)) :
      registerChanges registers ++ memoryChanges memory =
          registerChanges registers' ++ memoryChanges memory' ↔
        registers = registers' ∧ memory = memory' := by
    constructor
    · intro h
      rw [changes_eq_placeChanges, changes_eq_placeChanges] at h
      exact entries_inj (placeChanges_inj h)
    · rintro ⟨rfl, rfl⟩
      rfl
  refine ⟨fun changes changes' => ?_, fun changes changes' => ?_, hboth,
    fun s s' => hboth _ _ _ _, fun size m m' => ⟨registers_inj, registers_congr⟩⟩
  · have h := hboth changes changes' [] []
    simpa [memoryChanges] using h
  · have h := hboth [] [] changes changes'
    simpa [registerChanges] using h

end ByteMachine.Dump
