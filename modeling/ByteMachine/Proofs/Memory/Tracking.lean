import ByteMachine.Memory.Lemmas
import Mathlib.Data.List.DropRight
import Mathlib.Data.List.GetD

/-! Pending changes over a run. What is pending is the difference between the cells now and as they
were when changes were last taken or dropped, whatever was stored in between and in which order. The
invariant is kept by each cell on its own, so a store anywhere keeps it. -/

namespace ByteMachine

/-- The change from one value to another, if they differ. -/
def Change.between (old new : Byte) : Option Change := if old = new then none else some ⟨old, new⟩

namespace Cell

/-- What is pending is the difference from `base`. -/
def Tracks (cell : Cell) (base : Byte) : Prop := cell.pending = Change.between base cell.value

theorem tracks_settled (value : Byte) : (settled value).Tracks value := (if_pos rfl).symm

theorem Tracks.store {cell : Cell} {base : Byte} (h : cell.Tracks base) (value : Byte) :
    (cell.store value).Tracks base := by
  unfold Cell.store
  by_cases hsame : cell.value = value
  · rwa [if_pos hsame]
  · rw [if_neg hsame]
    unfold Tracks Change.between at h ⊢
    by_cases hbase : base = cell.value
    · -- the first change since the base
      rw [h, if_pos hbase, hbase, if_neg hsame]
      rfl
    · -- a further change, which may lead back to the base
      rw [h, if_neg hbase]
      rfl

end Cell

namespace Memory

variable {size : Nat}

/-! ### Images -/

theorem getElem_toList (m : Memory size) {address : Nat} (h : address < m.toList.length) :
    m.toList[address] = m.read address := by
  have hlt : address < size := by simpa [toList] using h
  rw [read_of_lt m hlt]
  simp [toList]

theorem length_toList (m : Memory size) : m.toList.length = size := by simp [toList]

theorem getD_toList (m : Memory size) (address : Nat) :
    m.toList.getD address 0 = m.read address := by
  by_cases h : address < m.toList.length
  · rw [List.getD_eq_getElem _ _ h, getElem_toList]
  · have hle : size ≤ address := by simpa [length_toList] using h
    rw [List.getD_eq_default _ _ (Nat.not_lt.1 h), read_of_le m hle]

theorem ofImage_eq_error_iff {image : List Byte} {e : ImageTooLarge} :
    ofImage size image = .error e ↔ size < image.length ∧ e = ⟨image.length, size⟩ := by
  unfold ofImage
  split
  · rename_i hle
    constructor
    · intro h
      cases h
    · rintro ⟨hlt, -⟩
      omega
  · rename_i hlt
    constructor
    · intro h
      cases h
      exact ⟨Nat.not_le.1 hlt, rfl⟩
    · rintro ⟨-, rfl⟩
      rfl

theorem length_le_of_ofImage {image : List Byte} {m : Memory size}
    (h : ofImage size image = .ok m) : image.length ≤ size := by
  unfold ofImage at h
  split at h
  · assumption
  · cases h

/-- The image comes first and zeros fill the rest. -/
theorem toList_ofImage {image : List Byte} {m : Memory size} (h : ofImage size image = .ok m) :
    m.toList = image ++ List.replicate (size - image.length) 0 := by
  have hle := length_le_of_ofImage h
  apply List.ext_getElem
  · rw [length_toList, List.length_append, List.length_replicate]
    omega
  · intro address hm himage
    rw [getElem_toList, read_ofImage h]
    by_cases hlt : address < image.length
    · rw [List.getElem_append_left hlt, List.getD_eq_getElem _ _ hlt]
    · rw [List.getElem_append_right (Nat.not_lt.1 hlt), List.getElem_replicate,
        List.getD_eq_default _ _ (Nat.not_lt.1 hlt)]

/-- Settling leaves the memory that holds the same cells as an image. -/
theorem ofImage_toList (m : Memory size) : ofImage size m.toList = .ok m.settle := by
  rw [ofImage, if_pos (length_toList m).le, settle]
  congr 2
  apply Vector.ext
  intro address h
  have hlt : address < m.toList.length := by rwa [length_toList]
  rw [Vector.getElem_ofFn, Vector.getElem_map, List.getD_eq_getElem _ _ hlt, getElem_toList,
    read_of_lt m h]

/-! ### The order of pending changes -/

theorem pairwise_pending (m : Memory size) : m.pending.Pairwise fun a b => a.1 < b.1 := by
  unfold pending
  rw [List.pairwise_filterMap, List.pairwise_iff_getElem]
  intro i j hi hj hij a ha b hb
  rw [List.getElem_zipIdx] at ha hb
  obtain ⟨c, -, rfl⟩ := Option.map_eq_some_iff.1 ha
  obtain ⟨d, -, rfl⟩ := Option.map_eq_some_iff.1 hb
  dsimp only
  omega

/-! ### The invariant -/

/-- What is pending is, cell by cell, the difference from `base`. -/
def Tracks (m : Memory size) (base : Nat → Byte) : Prop :=
  ∀ address (h : address < size), m.cells[address].Tracks (base address)

theorem tracks_settle (m : Memory size) : m.settle.Tracks m.read := by
  intro address h
  rw [read_of_lt m h, settle]
  dsimp only
  rw [Vector.getElem_map]
  exact Cell.tracks_settled _

theorem tracks_ofImage {image : List Byte} {m : Memory size} (h : ofImage size image = .ok m) :
    m.Tracks m.read := by
  intro address hlt
  rw [read_of_lt m hlt]
  unfold ofImage at h
  split at h
  · cases h
    dsimp only
    rw [Vector.getElem_ofFn]
    exact Cell.tracks_settled _
  · cases h

theorem Tracks.store {m : Memory size} {base : Nat → Byte} (h : m.Tracks base) (address : Nat)
    (value : Byte) : (m.store address value).Tracks base := by
  intro other hother
  unfold Memory.store
  split
  · dsimp only
    rw [Vector.getElem_set]
    split
    · rename_i heq
      subst heq
      exact (h address hother).store value
    · exact h other hother
  · exact h other hother

theorem Tracks.mem_pending_iff {m : Memory size} {base : Nat → Byte} (h : m.Tracks base)
    {address : Nat} {change : Change} :
    (address, change) ∈ m.pending ↔
      address < size ∧ base address ≠ m.read address ∧
        change = ⟨base address, m.read address⟩ := by
  rw [mem_pending]
  constructor
  · rintro ⟨hlt, hpending⟩
    rw [h address hlt, Change.between, ← read_of_lt m hlt] at hpending
    split at hpending
    · cases hpending
    · rename_i hne
      cases hpending
      exact ⟨hlt, hne, rfl⟩
  · rintro ⟨hlt, hne, rfl⟩
    refine ⟨hlt, ?_⟩
    rw [h address hlt, Change.between, ← read_of_lt m hlt, if_neg hne]

theorem tracks_of_pending_eq_nil {m : Memory size} (h : m.pending = []) : m.Tracks m.read := by
  intro address hlt
  rw [read_of_lt m hlt, Cell.Tracks, Change.between, if_pos rfl]
  cases hcell : m.cells[address].pending with
  | none => rfl
  | some change =>
    have hmem : (address, change) ∈ m.pending := mem_pending.2 ⟨hlt, hcell⟩
    rw [h] at hmem
    cases hmem

theorem Tracks.pending_eq {m : Memory size} {base : Nat → Byte} (h : m.Tracks base) :
    m.pending = (List.range size).filterMap fun address =>
      (Change.between (base address) (m.read address)).map (address, ·) := by
  have hcells : (m.cells.toList.zipIdx.map fun entry => entry.1.pending.map (entry.2, ·)) =
      (List.range size).map fun address =>
        (Change.between (base address) (m.read address)).map (address, ·) := by
    apply List.ext_getElem (by simp)
    intro address hleft hright
    have hlt : address < size := by simpa using hright
    have hcell : m.cells[address].pending = Change.between (base address) (m.read address) := by
      rw [read_of_lt m hlt]
      exact h address hlt
    simp [hcell]
  have hfilter := congrArg (List.filterMap id) hcells
  rwa [List.filterMap_map, List.filterMap_map] at hfilter

/-! ### Runs -/

inductive Action
  | store (address : Nat) (value : Byte)
  /-- Takes the pending changes. -/
  | drain
  /-- Drops the pending changes. -/
  | clear

def Action.run : Action → Memory size → Memory size
  | .store address value, m => m.store address value
  | .drain, m => m.drain.2
  | .clear, m => m.settle

def Action.isStore : Action → Bool
  | .store _ _ => true
  | .drain | .clear => false

/-- The value that the action stores at an address. -/
def Action.stored? (address : Nat) : Action → Option Byte
  | .store a value => if a = address then some value else none
  | .drain | .clear => none

def run (m : Memory size) (actions : List Action) : Memory size :=
  actions.foldl (fun m action => action.run m) m

/-- The cells as they were after the latest action that took or dropped changes, or at first. -/
def baseline (m : Memory size) (actions : List Action) : Nat → Byte :=
  (m.run (actions.rdropWhile Action.isStore)).read

def lastStored? (address : Nat) (actions : List Action) : Option Byte :=
  actions.reverse.findSome? (Action.stored? address)

theorem run_concat (m : Memory size) (actions : List Action) (action : Action) :
    m.run (actions ++ [action]) = action.run (m.run actions) := by
  simp [run]

theorem lastStored?_concat (address : Nat) (actions : List Action) (action : Action) :
    lastStored? address (actions ++ [action]) =
      (action.stored? address).or (lastStored? address actions) := by
  rw [lastStored?, List.reverse_concat, List.findSome?_cons]
  cases action.stored? address <;> rfl

/-- The invariant holds after every run. -/
theorem tracks_run {m : Memory size} (h : m.Tracks m.read) (actions : List Action) :
    (m.run actions).Tracks (m.baseline actions) := by
  induction actions using List.reverseRecOn with
  | nil => exact h
  | append_singleton actions action ih =>
    have hsettle : (m.run actions).settle.Tracks (m.run actions).settle.read := by
      have hread : (m.run actions).settle.read = (m.run actions).read :=
        funext fun address => read_settle _ address
      rw [hread]
      exact tracks_settle _
    rw [run_concat]
    unfold baseline at ih ⊢
    cases action with
    | store address value =>
      rw [List.rdropWhile_concat_pos _ _ _ rfl]
      exact ih.store address value
    | drain =>
      rw [List.rdropWhile_concat_neg _ _ _ Bool.false_ne_true, run_concat]
      exact hsettle
    | clear =>
      rw [List.rdropWhile_concat_neg _ _ _ Bool.false_ne_true, run_concat]
      exact hsettle

/-- A cell holds what was stored there last. -/
theorem read_run (m : Memory size) (actions : List Action) {address : Nat} (h : address < size) :
    (m.run actions).read address = (lastStored? address actions).getD (m.read address) := by
  induction actions using List.reverseRecOn with
  | nil => rfl
  | append_singleton actions action ih =>
    rw [run_concat, lastStored?_concat]
    cases action with
    | store a value =>
      rw [Action.run, read_store, Action.stored?]
      by_cases ha : a = address
      · subst ha
        simp [h]
      · simp [ha, ih]
    | drain => exact (read_settle _ _).trans ih
    | clear => exact (read_settle _ _).trans ih

/-- Pending changes are exactly the difference since changes were last taken or dropped. -/
theorem pending_run_eq_difference (size : Nat) (image : List Byte) :
    (∀ e, ofImage size image = .error e ↔ size < image.length ∧ e = ⟨image.length, size⟩) ∧
    ∀ m, ofImage size image = .ok m →
      m.toList = image ++ List.replicate (size - image.length) 0 ∧
      ∀ actions : List Action,
        let now := m.run actions
        let base := m.baseline actions
        (∀ address change, (address, change) ∈ now.pending ↔
          address < size ∧ base address ≠ now.read address ∧
            change = ⟨base address, now.read address⟩) ∧
        now.drain.1 = now.pending ∧
        (now.pending.Pairwise fun a b => a.1 < b.1) ∧
        ofImage size now.toList = .ok now.drain.2 ∧
        (∀ address, now.read address =
          if address < size then (lastStored? address actions).getD (image.getD address 0)
          else 0) ∧
        ∀ address value, size ≤ address → now.store address value = now := by
  refine ⟨fun e => ofImage_eq_error_iff, fun m h => ⟨toList_ofImage h, fun actions => ?_⟩⟩
  have htracks := tracks_run (tracks_ofImage h) actions
  refine ⟨fun address change => htracks.mem_pending_iff, rfl, pairwise_pending _,
    ofImage_toList _, fun address => ?_, fun address value => store_of_le _ value⟩
  split
  · rename_i hlt
    rw [read_run m actions hlt, read_ofImage h]
  · rename_i hle
    exact read_of_le _ (Nat.not_lt.1 hle)

/-- One cell changes after a drain, another is changed and changed back. -/
theorem pending_run_there_and_back :
    let m : Memory 4 := ⟨#v[.settled 1, .settled 2, .settled 0, .settled 0]⟩
    let actions : List Action := [.store 0 7, .drain, .store 1 5, .store 0 1, .store 1 2]
    ofImage 4 [1, 2] = .ok m ∧
    (∀ change, (0, change) ∈ (m.run actions).pending ↔ change = ⟨7, 1⟩) ∧
    (∀ change, (1, change) ∉ (m.run actions).pending) ∧
    (m.run actions).store 9 4 = m.run actions := by
  intro m actions
  have hm : ofImage 4 [1, 2] = .ok m := by decide +kernel
  obtain ⟨-, h⟩ := pending_run_eq_difference 4 [1, 2]
  obtain ⟨hpending, -, -, -, -, hout⟩ := (h m hm).2 actions
  have hsame : m.baseline actions 1 = (m.run actions).read 1 := by decide +kernel
  have hold : m.baseline actions 0 = 7 := by decide +kernel
  have hnew : (m.run actions).read 0 = 1 := by decide +kernel
  refine ⟨hm, fun change => ?_, fun change hmem => ((hpending 1 change).1 hmem).2.1 hsame,
    hout 9 4 (by decide)⟩
  rw [hpending, hold, hnew]
  exact ⟨fun h => h.2.2, fun h => ⟨by decide, by decide, h⟩⟩

end Memory

end ByteMachine
