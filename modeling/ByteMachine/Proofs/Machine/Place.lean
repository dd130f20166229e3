import ByteMachine.Machine.Basic
import ByteMachine.Memory.Lemmas

/-! The cells of the store as places. Putting a value in a place is one store to that cell, and no
other cell notices. -/

namespace ByteMachine

/-- A cell that instructions read or write. -/
inductive Place
  | register (index : Nat)
  | memory (address : Nat)
  deriving DecidableEq

/-- Whether the store has such a cell. -/
def Place.Exists : Place → Prop
  | .register index => index < 16
  | .memory address => address < 256

namespace Store

def value (s : Store) : Place → Byte
  | .register index => s.registers.read index
  | .memory address => s.memory.read address

/-- The store with one store made to a cell. -/
def put (s : Store) : Place → Byte → Store
  | .register index, value => s.setRegister index value
  | .memory address, value => s.setMemory address value

/-- The change is pending in the place. -/
def HasPending (s : Store) (change : Change) : Place → Prop
  | .register index => (index, change) ∈ s.registers.pending
  | .memory address => (address, change) ∈ s.memory.pending

theorem value_put (s : Store) {place : Place} (value : Byte) (h : place.Exists) :
    (s.put place value).value place = value := by
  cases place with
  | register index => exact (Memory.read_store _ _ _ _).trans (if_pos ⟨rfl, h⟩)
  | memory address => exact (Memory.read_store _ _ _ _).trans (if_pos ⟨rfl, h⟩)

theorem value_put_of_ne (s : Store) {place other : Place} (value : Byte) (h : other ≠ place) :
    (s.put place value).value other = s.value other := by
  cases place with
  | register index =>
    cases other with
    | register other => exact Memory.read_store_of_ne _ _ fun heq => h (heq ▸ rfl)
    | memory other => rfl
  | memory address =>
    cases other with
    | register other => rfl
    | memory other => exact Memory.read_store_of_ne _ _ fun heq => h (heq ▸ rfl)

theorem hasPending_put_of_ne (s : Store) {place other : Place} (value : Byte) (change : Change)
    (h : other ≠ place) :
    (s.put place value).HasPending change other ↔ s.HasPending change other := by
  cases place with
  | register index =>
    cases other with
    | register other => exact Memory.mem_pending_store_of_ne _ _ fun heq => h (heq ▸ rfl)
    | memory other => rfl
  | memory address =>
    cases other with
    | register other => rfl
    | memory other => exact Memory.mem_pending_store_of_ne _ _ fun heq => h (heq ▸ rfl)

theorem put_comm (s : Store) {place other : Place} (value value' : Byte) (h : place ≠ other) :
    (s.put place value).put other value' = (s.put other value').put place value := by
  cases place with
  | register index =>
    cases other with
    | register other =>
      have hne : index ≠ other := fun heq => h (heq ▸ rfl)
      exact congrArg (Store.mk · s.memory) (Memory.store_comm _ _ _ hne)
    | memory other => rfl
  | memory address =>
    cases other with
    | register other => rfl
    | memory other =>
      have hne : address ≠ other := fun heq => h (heq ▸ rfl)
      exact congrArg (Store.mk s.registers) (Memory.store_comm _ _ _ hne)

theorem put_value (s : Store) (place : Place) : s.put place (s.value place) = s := by
  cases place with
  | register index => exact congrArg (Store.mk · s.memory) (Memory.store_read _ index)
  | memory address => exact congrArg (Store.mk s.registers) (Memory.store_read _ address)

end Store

end ByteMachine
