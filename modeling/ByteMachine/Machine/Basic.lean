import ByteMachine.Log
import ByteMachine.Memory.Basic

/-! The state of the machine: sixteen registers and 256 bytes of main memory, which instructions
work on, and two registers of its own. Of these the program counter stays where it is, and the
instruction register holds the word executed last; no instruction reads either. -/

namespace ByteMachine

/-- What instructions read and write. -/
structure Store where
  registers : Memory 16
  memory : Memory 256
  deriving DecidableEq

namespace Store

def setRegister (s : Store) (register : Nat) (value : Byte) : Store :=
  { s with registers := s.registers.store register value }

def setMemory (s : Store) (address : Nat) (value : Byte) : Store :=
  { s with memory := s.memory.store address value }

/-- The store with nothing pending. -/
def settle (s : Store) : Store := ⟨s.registers.settle, s.memory.settle⟩

end Store

structure Machine extends Store where
  pc : Byte
  ir : Word
  deriving DecidableEq

namespace Machine

/-- A machine with the given memory and zero elsewhere. -/
def withMemory (memory : Memory 256) : Machine := ⟨⟨.zero, memory⟩, 0, 0⟩

/-- A machine with zero everywhere. -/
def zero : Machine := withMemory .zero

/-- A machine whose memory holds an image. -/
def ofImage (image : List Byte) : Except ImageTooLarge Machine :=
  (Memory.ofImage 256 image).map withMemory

def mapStore (m : Machine) (f : Store → Store) : Machine := { m with toStore := f m.toStore }

/-- The machine with nothing pending. -/
def settle (m : Machine) : Machine := m.mapStore Store.settle

end Machine

/-- Whether execution may go on. -/
inductive Status
  | normal
  | halted
  deriving DecidableEq

/-- What executing one word gives: the state after it, whether to go on, and what was logged. -/
structure Outcome (σ : Type) where
  state : σ
  status : Status
  log : Log

end ByteMachine
