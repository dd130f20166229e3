import ByteMachine.Memory.Basic

/-! What each operation on memory does to the two views of it: `read`, which gives the value at any
address, and `pending`, which lists a change exactly where a cell has one. -/

namespace ByteMachine.Memory

variable {size : Nat}

/-! ### Reading -/

theorem read_of_lt (m : Memory size) {address : Nat} (h : address < size) :
    m.read address = m.cells[address].value := by
  simp [read, Vector.getElem?_eq_getElem h]

theorem read_of_le (m : Memory size) {address : Nat} (h : size ≤ address) :
    m.read address = 0 := by
  simp [read, Vector.getElem?_eq_none h]

theorem store_of_le (m : Memory size) {address : Nat} (value : Byte) (h : size ≤ address) :
    m.store address value = m :=
  dif_neg (Nat.not_lt.2 h)

theorem value_store (cell : Cell) (value : Byte) : (cell.store value).value = value := by
  unfold Cell.store
  split
  · assumption
  · rfl

theorem read_store (m : Memory size) (address other : Nat) (value : Byte) :
    (m.store address value).read other =
      if address = other ∧ address < size then value else m.read other := by
  by_cases h : address < size
  · by_cases ho : other < size
    · rw [store, dif_pos h, read_of_lt _ ho, read_of_lt _ ho, Vector.getElem_set]
      by_cases he : address = other
      · simp [he, ho, value_store]
      · simp [he]
    · have : address ≠ other := by omega
      simp [read_of_le _ (Nat.not_lt.1 ho), this]
  · simp [store_of_le _ _ (Nat.not_lt.1 h), h]

theorem read_store_of_ne (m : Memory size) {address other : Nat} (value : Byte)
    (h : other ≠ address) : (m.store address value).read other = m.read other := by
  rw [read_store, if_neg fun heq => h heq.1.symm]

theorem read_settle (m : Memory size) (address : Nat) : m.settle.read address = m.read address := by
  by_cases h : address < size
  · rw [read_of_lt _ h, read_of_lt _ h]
    simp [settle, Cell.settled]
  · rw [read_of_le _ (Nat.not_lt.1 h), read_of_le _ (Nat.not_lt.1 h)]

theorem read_ofImage {image : List Byte} {m : Memory size} (h : ofImage size image = .ok m)
    (address : Nat) : m.read address = image.getD address 0 := by
  unfold ofImage at h
  split at h
  · rename_i hle
    cases h
    by_cases ha : address < size
    · rw [read_of_lt _ ha]
      simp [Cell.settled]
    · rw [read_of_le _ (Nat.not_lt.1 ha)]
      simp [List.getElem?_eq_none (show image.length ≤ address by omega)]
  · cases h

theorem ofImage_nil : ofImage size [] = .ok zero := by
  rw [ofImage, if_pos (show [].length ≤ size from Nat.zero_le size), zero]
  congr 2
  refine Vector.ext fun address h => ?_
  rw [Vector.getElem_ofFn, Vector.getElem_replicate]
  rfl

theorem read_zero (address : Nat) : (zero : Memory size).read address = 0 := by
  rw [read_ofImage ofImage_nil, List.getD_nil]

/-! ### Stores -/

theorem store_comm (m : Memory size) {address other : Nat} (value value' : Byte)
    (h : address ≠ other) :
    (m.store address value).store other value' = (m.store other value').store address value := by
  by_cases ha : address < size
  · by_cases ho : other < size
    · simp only [store, dif_pos ha, dif_pos ho, Vector.getElem_set_ne ha ho h,
        Vector.getElem_set_ne ho ha h.symm, Vector.set_comm _ _ h]
    · rw [store_of_le _ _ (Nat.not_lt.1 ho), store_of_le _ _ (Nat.not_lt.1 ho)]
  · rw [store_of_le _ _ (Nat.not_lt.1 ha), store_of_le _ _ (Nat.not_lt.1 ha)]

/-- Storing what a cell holds already changes nothing, what is pending included. -/
theorem store_read (m : Memory size) (address : Nat) : m.store address (m.read address) = m := by
  by_cases h : address < size
  · rw [read_of_lt m h, store, dif_pos h, Cell.store, if_pos rfl, Vector.set_getElem_self]
  · exact store_of_le m _ (Nat.not_lt.1 h)

/-! ### Pending changes -/

theorem mem_pending {m : Memory size} {address : Nat} {change : Change} :
    (address, change) ∈ m.pending ↔
      ∃ h : address < size, m.cells[address].pending = some change := by
  simp only [pending, List.mem_filterMap, Option.map_eq_some_iff, Prod.mk.injEq, Prod.exists]
  constructor
  · rintro ⟨cell, i, hmem, c, hc, rfl, rfl⟩
    obtain ⟨hi, hcell⟩ := List.mem_zipIdx' hmem
    have hlt : i < size := by simpa using hi
    exact ⟨hlt, by rw [← hc, hcell]; simp⟩
  · rintro ⟨h, hc⟩
    refine ⟨m.cells[address], address, ?_, change, hc, rfl, rfl⟩
    rw [List.mem_zipIdx_iff_getElem?]
    simp [h]

theorem mem_pending_store_of_ne (m : Memory size) {address other : Nat} (value : Byte)
    {change : Change} (h : other ≠ address) :
    (other, change) ∈ (m.store address value).pending ↔ (other, change) ∈ m.pending := by
  rw [mem_pending, mem_pending, store]
  split
  · refine exists_congr fun hother => ?_
    rw [Vector.getElem_set_ne _ hother h.symm]
  · rfl

theorem pending_ofImage {image : List Byte} {m : Memory size} (h : ofImage size image = .ok m) :
    m.pending = [] := by
  unfold ofImage at h
  split at h
  · cases h
    rw [List.eq_nil_iff_forall_not_mem]
    rintro ⟨address, change⟩ hmem
    obtain ⟨hlt, hc⟩ := mem_pending.1 hmem
    simp [Cell.settled] at hc
  · cases h

theorem pending_zero : (zero : Memory size).pending = [] := pending_ofImage ofImage_nil

/-- With nothing pending there is nothing to a memory but what is read from it. -/
theorem eq_of_read_eq {m m' : Memory size} (hm : m.pending = []) (hm' : m'.pending = [])
    (h : ∀ address, m.read address = m'.read address) : m = m' := by
  have hnone {m : Memory size} (hm : m.pending = []) {address : Nat} (hlt : address < size) :
      m.cells[address].pending = none := by
    cases hc : m.cells[address].pending with
    | none => rfl
    | some change =>
      have hmem : (address, change) ∈ m.pending := mem_pending.2 ⟨hlt, hc⟩
      rw [hm] at hmem
      cases hmem
  have hcell : ∀ address (hlt : address < size), m.cells[address] = m'.cells[address] := by
    intro address hlt
    have hvalue : m.cells[address].value = m'.cells[address].value := by
      rw [← read_of_lt m hlt, ← read_of_lt m' hlt, h]
    have hpending : m.cells[address].pending = m'.cells[address].pending := by
      rw [hnone hm hlt, hnone hm' hlt]
    exact Cell.ext hvalue hpending
  exact congrArg Memory.mk (Vector.ext hcell)

theorem pending_settle (m : Memory size) : m.settle.pending = [] := by
  rw [List.eq_nil_iff_forall_not_mem]
  rintro ⟨address, change⟩ h
  obtain ⟨hlt, hc⟩ := mem_pending.1 h
  simp [settle, Cell.settled] at hc

end ByteMachine.Memory
