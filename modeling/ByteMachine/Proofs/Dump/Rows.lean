import ByteMachine.Dump
import ByteMachine.Memory.Lemmas
import ByteMachine.Proofs.Text.PhysicalLines
import ByteMachine.Proofs.Text.Positional
import ByteMachine.Proofs.Text.Separated
import Mathlib.Data.List.Basic

/-! Memory dumps read back. A row is its address and its bytes, which stand at addresses that follow
one another. The rows of a dump are found again in its lines, and their cells are those that the
dump was asked for and memory has, each once and in order. -/

namespace ByteMachine.Dump

/-- A row of a dump: the address of its first byte, and its bytes. -/
structure Row where
  address : Nat
  bytes : List Byte
  deriving DecidableEq

namespace Row

/-- The bytes with their addresses. -/
def cells (row : Row) : List (Nat × Byte) :=
  (List.range' row.address row.bytes.length).zip row.bytes

/-- The row in print, without the end of its line. -/
def text (row : Row) : String :=
  s!"{Numeral.hex 2 row.address}: " ++ " ".intercalate (row.bytes.map Numeral.byte)

end Row

/-! ### A reader of dumps -/

/-- Reads hexadecimal digits, one at least. -/
def readHex (digits : List Char) : Option Nat :=
  if digits ≠ [] ∧ digits.all (Numeral.IsHexDigit ·) then some (Numeral.value 16 digits) else none

/-- Reads two hexadecimal digits. -/
def readByte (digits : List Char) : Option Byte :=
  if digits.length = 2 then (readHex digits).map UInt8.ofNat else none

/-- Reads an address up to a colon, and after a space bytes with a space between any two. -/
def readRow (text : String) : Option Row :=
  match text.toList.dropWhile (· != ':') with
  | ':' :: ' ' :: rest => do
    let address ← readHex (text.toList.takeWhile (· != ':'))
    let bytes ← (rest.splitOn ' ').mapM readByte
    return ⟨address, bytes⟩
  | _ => none

/-- Reads a dump row by row. -/
def readRows (dump : String) : Option (List Row) := (Text.lines dump).mapM readRow

/-! ### Reading what is printed -/

theorem mapM_map_eq_some {α β γ : Type} {f : β → Option γ} {g : α → β} {h : α → γ} {as : List α}
    (hf : ∀ a ∈ as, f (g a) = some (h a)) : (as.map g).mapM f = some (as.map h) := by
  induction as with
  | nil => rfl
  | cons a as ih =>
    rw [List.forall_mem_cons] at hf
    rw [List.map_cons, List.mapM_cons, hf.1, ih hf.2]
    rfl

theorem readHex_hex (width n : Nat) : readHex (Numeral.hex width n).toList = some n := by
  have hdigits : (Numeral.hex width n).toList.all (Numeral.IsHexDigit ·) = true :=
    List.all_eq_true.2 fun c hc => decide_eq_true (Numeral.isHexDigit_of_mem_hex hc)
  rw [readHex, if_pos ⟨Numeral.toList_hex_ne_nil width n, hdigits⟩, Numeral.value_hex]

theorem readByte_byte (b : Byte) : readByte (Numeral.byte b).toList = some b := by
  rw [readByte, if_pos (Numeral.length_byte b), Numeral.byte, readHex_hex]
  exact congrArg some UInt8.ofNat_toNat

theorem toList_text (row : Row) :
    row.text.toList = (Numeral.hex 2 row.address).toList ++
      ':' :: ' ' :: (" ".intercalate (row.bytes.map Numeral.byte)).toList := by
  rw [Row.text, String.toList_append, String.toList_append, List.append_assoc]
  rfl

theorem notMem_text {c : Char} (hdigit : ∀ d : Fin 16, c ≠ Numeral.upperDigit d) (hcolon : c ≠ ':')
    (hspace : c ≠ ' ') (row : Row) : c ∉ row.text.toList := by
  intro h
  rw [toList_text, List.mem_append, List.mem_cons, List.mem_cons] at h
  rcases h with h | h | h | h
  · exact Numeral.notMem_hex hdigit _ _ h
  · exact hcolon h
  · exact hspace h
  · rcases Text.mem_intercalate h with h | ⟨piece, hpiece, h⟩
    · exact hspace (List.mem_singleton.1 h)
    · obtain ⟨byte, -, rfl⟩ := List.mem_map.1 hpiece
      exact Numeral.notMem_hex hdigit _ _ h

theorem readRow_text {row : Row} (h : row.bytes ≠ []) : readRow row.text = some row := by
  have hcolon : ':' ∉ (Numeral.hex 2 row.address).toList := Numeral.notMem_hex (by decide) _ _
  have hbytes : ((" ".intercalate (row.bytes.map Numeral.byte)).toList).splitOn ' ' =
      row.bytes.map fun byte => (Numeral.byte byte).toList := by
    rw [String.toList_intercalate, List.map_map]
    refine List.splitOn_intercalate ' ' (fun piece hpiece => ?_) (by simpa using h)
    obtain ⟨byte, -, rfl⟩ := List.mem_map.1 hpiece
    exact Numeral.notMem_hex (by decide) _ _
  rw [readRow, toList_text, Text.dropWhile_append_mark hcolon, Text.takeWhile_append_mark hcolon]
  change (readHex _ >>= fun address => (List.splitOn ' ' _).mapM readByte >>= fun bytes =>
    some (Row.mk address bytes)) = _
  rw [readHex_hex, hbytes, mapM_map_eq_some (h := id) fun byte _ => readByte_byte byte,
    List.map_id]
  rfl

/-- Rows that are not empty are found again. -/
theorem readRows_join {rows : List Row} (h : ∀ row ∈ rows, row.bytes ≠ []) :
    readRows (String.join (rows.map fun row => row.text ++ "\n")) = some rows := by
  have hlines : Text.lines (String.join (rows.map fun row => row.text ++ "\n")) =
      rows.map Row.text := by
    have htexts : ∀ text ∈ rows.map Row.text, '\n' ∉ text.toList ∧ '\r' ∉ text.toList := by
      intro text htext
      obtain ⟨row, -, rfl⟩ := List.mem_map.1 htext
      exact ⟨notMem_text (by decide) (by decide) (by decide) row,
        notMem_text (by decide) (by decide) (by decide) row⟩
    rw [← Text.lines_join htexts, List.map_map]
    rfl
  rw [readRows, hlines,
    mapM_map_eq_some (g := Row.text) (h := id) fun row hrow => readRow_text (h row hrow), List.map_id]

/-! ### The rows of a dump -/

section Cut

variable {size : Nat} (m : Memory size) (start stop : Nat)

/-- The row of the bytes from `first` up to but not including `last`. -/
def rowOf (first last : Nat) : Row := ⟨first, (List.range' first (last - first)).map m.read⟩

/-- How many rows there are. -/
def rowCount : Nat := (stop - start + (rowLength - 1)) / rowLength

/-- The row with the given number; the first has number zero. -/
def rowAt (k : Nat) : Row :=
  rowOf m (start + k * rowLength) (min (start + k * rowLength + rowLength) stop)

def cut : List Row := (List.range (rowCount start stop)).map (rowAt m start stop)

theorem rows_eq : rows m start stop =
    String.join ((cut m start stop).map fun row => row.text ++ "\n") := by
  rw [rows, cut, List.map_map]
  refine congrArg String.join (List.map_congr_left fun k _ => ?_)
  simp [rowAt, rowOf, row, Row.text, Function.comp_def]

theorem cells_rowOf (first last : Nat) : (rowOf m first last).cells =
    (List.range' first (last - first)).map fun address => (address, m.read address) := by
  rw [Row.cells, rowOf, List.length_map, List.length_range', ← List.map_prod_left_eq_zip]

theorem length_bytes_rowAt (k : Nat) : (rowAt m start stop k).bytes.length =
    min (start + k * rowLength + rowLength) stop - (start + k * rowLength) := by
  rw [rowAt, rowOf, List.length_map, List.length_range']

/-- Addresses row after row are addresses one after the other. -/
theorem flatMap_range'_rows (count : Nat) :
    ((List.range count).flatMap fun k => List.range' (start + k * rowLength)
      (min (start + k * rowLength + rowLength) stop - (start + k * rowLength))) =
      List.range' start (min (start + count * rowLength) stop - start) := by
  induction count with
  | zero => simp
  | succ count ih =>
    have hnext : start + (count + 1) * rowLength = start + count * rowLength + rowLength := by
      rw [Nat.succ_mul, Nat.add_assoc]
    rw [List.range_succ, List.flatMap_append, ih, List.flatMap_singleton, hnext]
    by_cases h : start + count * rowLength ≤ stop
    · have hfull : min (start + count * rowLength) stop - start = count * rowLength := by omega
      have hlength : min (start + count * rowLength + rowLength) stop - start =
          count * rowLength +
            (min (start + count * rowLength + rowLength) stop - (start + count * rowLength)) := by
        omega
      rw [hfull, hlength, List.range'_append_1]
    · -- the rows before have reached the end, and this one is empty
      have hnone : min (start + count * rowLength + rowLength) stop - (start + count * rowLength) =
          0 := by omega
      have hsame : min (start + count * rowLength + rowLength) stop =
          min (start + count * rowLength) stop := by omega
      rw [hnone, hsame, List.range'_zero, List.append_nil]

theorem flatMap_cells_cut : (cut m start stop).flatMap Row.cells =
    (List.range' start (stop - start)).map fun address => (address, m.read address) := by
  have hall : min (start + rowCount start stop * rowLength) stop - start = stop - start := by
    unfold rowCount rowLength
    omega
  rw [cut, List.flatMap_map, ← hall, ← flatMap_range'_rows, List.map_flatMap]
  exact List.flatMap_congr fun k _ => cells_rowOf m _ _

theorem map_address_cut : (cut m start stop).map Row.address =
    List.range' start (cut m start stop).length rowLength := by
  refine List.ext_getElem (by simp) fun i _ _ => ?_
  simp [cut, rowAt, rowOf, Nat.mul_comm]

theorem length_bytes_of_mem_dropLast {row : Row} (h : row ∈ (cut m start stop).dropLast) :
    row.bytes.length = rowLength := by
  rw [cut, ← List.map_dropLast] at h
  obtain ⟨k, hk, rfl⟩ := List.mem_map.1 h
  have hlt : k + 1 < rowCount start stop := by
    cases hcount : rowCount start stop with
    | zero => simp [hcount] at hk
    | succ count =>
      rw [hcount, List.range_succ, List.dropLast_concat, List.mem_range] at hk
      omega
  rw [length_bytes_rowAt]
  unfold rowCount at hlt
  unfold rowLength at hlt ⊢
  omega

theorem length_bytes_of_mem {row : Row} (h : row ∈ cut m start stop) :
    1 ≤ row.bytes.length ∧ row.bytes.length ≤ rowLength := by
  obtain ⟨k, hk, rfl⟩ := List.mem_map.1 h
  have hlt : k < rowCount start stop := List.mem_range.1 hk
  rw [length_bytes_rowAt]
  unfold rowCount at hlt
  unfold rowLength at hlt ⊢
  omega

theorem cut_eq_nil_iff : cut m start stop = [] ↔ stop ≤ start := by
  rw [cut, List.map_eq_nil_iff, List.range_eq_nil, rowCount, rowLength]
  omega

theorem readRows_rows : readRows (rows m start stop) = some (cut m start stop) := by
  rw [rows_eq]
  refine readRows_join fun row hrow => ?_
  rw [← List.length_pos_iff]
  exact (length_bytes_of_mem m start stop hrow).1

end Cut

/-! ### The bytes of a dump -/

/-- Every byte that a dump is asked for and that memory has is shown once, in place: the rows follow
one another without a gap, and all but the last are full. The sum of start and length may stop at any
number that the size does not exceed. -/
theorem memory_shows_each_byte_once {size : Nat} (m : Memory size) (start length : Nat) :
    let stop := min (start + length) size
    (∃ rows, readRows (memory m start length) = some rows ∧
      rows.flatMap Row.cells =
        (List.range' start (stop - start)).map (fun address => (address, m.read address)) ∧
      rows.map Row.address = List.range' start rows.length 16 ∧
      (∀ row ∈ rows.dropLast, row.bytes.length = 16) ∧
      ∀ row ∈ rows.getLast?, 1 ≤ row.bytes.length ∧ row.bytes.length ≤ 16) ∧
    (memory m start length = "" ↔ stop ≤ start) ∧
    ∀ greatest, size ≤ greatest →
      rows m start (min (min (start + length) greatest) size) = memory m start length := by
  intro stop
  have hread : readRows (memory m start length) = some (cut m start stop) := readRows_rows m _ _
  refine ⟨⟨cut m start stop, hread, flatMap_cells_cut m _ _, map_address_cut m _ _,
    fun row => length_bytes_of_mem_dropLast m _ _, fun row hrow => ?_⟩, ?_, fun greatest h => ?_⟩
  · exact length_bytes_of_mem m _ _ (List.mem_of_mem_getLast? hrow)
  · rw [← cut_eq_nil_iff m]
    constructor
    · intro hempty
      rw [hempty] at hread
      exact (Option.some.inj hread).symm
    · intro hnil
      rw [memory, rows_eq, show cut m start (min (start + length) size) = [] from hnil]
      rfl
  · rw [memory, Nat.min_assoc, Nat.min_eq_right h]

/-- A start within a row and a length that goes beyond the greatest number: a full row, and one with
the last byte alone. -/
theorem memory_shows_last_byte_alone :
    let m : Memory 20 := Memory.zero.store 19 0xAB
    let full : Row := ⟨3, List.replicate 16 0⟩
    let short : Row := ⟨19, [0xAB]⟩
    readRows (memory m 3 0xFFFFFFFFFFFFFFFF) = some [full, short] ∧
      [full, short].flatMap Row.cells =
        (List.range' 3 17).map (fun address => (address, m.read address)) ∧
      (full ∈ [full, short].dropLast ∧ full.bytes.length = 16) ∧
      (short ∈ [full, short].getLast? ∧ short.bytes.length ≤ 16) ∧
      20 ≤ 0xFFFFFFFFFFFFFFFF ∧
      rows m 3 (min (min (3 + 0xFFFFFFFFFFFFFFFF) 0xFFFFFFFFFFFFFFFF) 20) =
        memory m 3 0xFFFFFFFFFFFFFFFF := by
  intro m full short
  obtain ⟨⟨rows, hrows, hcells, -, hfull, hlast⟩, -, hgreatest⟩ :=
    memory_shows_each_byte_once m 3 0xFFFFFFFFFFFFFFFF
  have hread : readRows (memory m 3 0xFFFFFFFFFFFFFFFF) = some [full, short] := by decide +kernel
  obtain rfl : rows = [full, short] := Option.some.inj (hrows.symm.trans hread)
  have hsize : 20 ≤ 0xFFFFFFFFFFFFFFFF := by decide
  exact ⟨hread, hcells, ⟨List.mem_cons_self, hfull full List.mem_cons_self⟩,
    ⟨rfl, (hlast short rfl).2⟩, hsize, hgreatest _ hsize⟩

end ByteMachine.Dump
