import ByteMachine.Word

/-! Byte memory of fixed size that remembers its pending changes. Reading past the end gives zero
and storing there does nothing. A cell's pending change names the value before the first store since
the changes were last taken and the value after the latest one. When these are equal again, nothing
is pending. -/

namespace ByteMachine

/-- A cell's value before and after. -/
structure Change where
  old : Byte
  new : Byte
  deriving DecidableEq

namespace Change

/-- What is pending after a cell goes from `old` to `new` with `pending` before it. -/
def record (pending : Option Change) (old new : Byte) : Option Change :=
  match pending with
  | none => some ⟨old, new⟩
  | some first => if first.old = new then none else some ⟨first.old, new⟩

end Change

@[ext]
structure Cell where
  value : Byte
  pending : Option Change
  deriving DecidableEq

namespace Cell

/-- A cell with nothing pending. -/
def settled (value : Byte) : Cell := ⟨value, none⟩

/-- Storing the value that the cell already holds leaves it alone. -/
def store (cell : Cell) (value : Byte) : Cell :=
  if cell.value = value then cell
  else ⟨value, Change.record cell.pending cell.value value⟩

end Cell

structure Memory (size : Nat) where
  cells : Vector Cell size
  deriving DecidableEq

/-- Why a memory cannot hold an image. -/
structure ImageTooLarge where
  length : Nat
  size : Nat
  deriving DecidableEq

def ImageTooLarge.message (error : ImageTooLarge) : String :=
  s!"Given data ({error.length} bytes) exceeds memory size ({error.size} bytes)"

namespace Memory

variable {size : Nat}

/-- Zero in every cell and nothing pending. -/
def zero : Memory size := ⟨Vector.replicate size (.settled 0)⟩

/-- The image from address zero on, with zeros after it. -/
def ofImage (size : Nat) (image : List Byte) : Except ImageTooLarge (Memory size) :=
  if image.length ≤ size then .ok ⟨Vector.ofFn fun i => .settled (image.getD i 0)⟩
  else .error ⟨image.length, size⟩

def read (m : Memory size) (address : Nat) : Byte :=
  match m.cells[address]? with
  | some cell => cell.value
  | none => 0

def store (m : Memory size) (address : Nat) (value : Byte) : Memory size :=
  if h : address < size then ⟨m.cells.set address (m.cells[address].store value)⟩ else m

/-- Every cell's value, in order. -/
def toList (m : Memory size) : List Byte := m.cells.toList.map Cell.value

/-- The pending changes with their addresses, ascending. -/
def pending (m : Memory size) : List (Nat × Change) :=
  m.cells.toList.zipIdx.filterMap fun (cell, address) => cell.pending.map (address, ·)

/-- The memory with nothing pending. -/
def settle (m : Memory size) : Memory size := ⟨m.cells.map fun cell => .settled cell.value⟩

/-- Takes the pending changes. -/
def drain (m : Memory size) : List (Nat × Change) × Memory size := (m.pending, m.settle)

end Memory

end ByteMachine
