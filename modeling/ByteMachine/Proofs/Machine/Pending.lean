import ByteMachine.Proofs.Machine.Difference

/-! What is pending in the store: the difference from the contents that it is counted from.
Execution keeps it so, and settling counts anew. -/

namespace ByteMachine

namespace Store

open Contents

/-- The pending changes of all cells, registers first. -/
def pendingChanges (s : Store) : List (Place × Change) :=
  s.registers.pending.map (fun entry => (Place.register entry.1, entry.2)) ++
    s.memory.pending.map fun entry => (Place.memory entry.1, entry.2)

/-- What is pending is, cell by cell, the difference from `base`. -/
structure Tracks (s : Store) (base : Contents) : Prop where
  registers : s.registers.Tracks fun index => base (.register index)
  memory : s.memory.Tracks fun address => base (.memory address)

variable {s : Store} {base : Contents}

theorem Tracks.pendingChanges_eq (h : s.Tracks base) :
    s.pendingChanges = difference base s.value := by
  rw [pendingChanges, h.registers.pending_eq, h.memory.pending_eq, difference, Place.all,
    List.filterMap_append, List.filterMap_map, List.filterMap_map, List.map_filterMap,
    List.map_filterMap]
  simp only [Option.map_map]
  rfl

theorem tracks_settle (s : Store) : s.settle.Tracks s.value :=
  ⟨Memory.tracks_settle _, Memory.tracks_settle _⟩

theorem tracks_of_pending_eq_nil (hregisters : s.registers.pending = [])
    (hmemory : s.memory.pending = []) : s.Tracks s.value :=
  ⟨Memory.tracks_of_pending_eq_nil hregisters, Memory.tracks_of_pending_eq_nil hmemory⟩

theorem Tracks.put (h : s.Tracks base) (place : Place) (value : Byte) :
    (s.put place value).Tracks base := by
  cases place with
  | register index => exact ⟨h.registers.store index value, h.memory⟩
  | memory address => exact ⟨h.registers, h.memory.store address value⟩

theorem Tracks.apply (h : s.Tracks base) (verbosity : Verbosity) (word : Word) :
    (s.apply verbosity word).state.Tracks base := by
  rw [apply_eq_perform]
  cases s.effect? word with
  | none => exact h
  | some effect => exact h.put effect.1 effect.2

theorem pendingChanges_settle (s : Store) : s.settle.pendingChanges = [] := by
  rw [pendingChanges, settle, Memory.pending_settle, Memory.pending_settle]
  rfl

end Store

/-- Words count from where counting began before them. -/
theorem Machine.tracks_executeWords {base : Contents} {m : Machine} (h : m.toStore.Tracks base)
    (verbosity : Verbosity) (words : List Word) :
    (m.executeWords verbosity words).machine.toStore.Tracks base := by
  induction words generalizing m with
  | nil => exact h
  | cons word words ih =>
    have hfirst : (m.execute verbosity word).state.toStore.Tracks base := h.apply verbosity word
    rw [executeWords]
    cases (m.execute verbosity word).status with
    | halted => exact hfirst
    | normal => exact ih hfirst

end ByteMachine
