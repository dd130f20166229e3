import ByteMachine.Proofs.Machine.Reference
import ByteMachine.Proofs.Machine.Trace
import ByteMachine.Proofs.Memory.Tracking
import Mathlib.Data.List.Nodup
import Mathlib.Data.List.Perm.Subperm
import Mathlib.Logic.Function.Basic

/-! The contents of the cells, and what changes them. Execution reads contents only, so machines
that differ in what is pending run alike; and it changes one cell at most. The difference of two
contents lists the cells that differ with both values. Writing its new values leads from the first
contents to the second, and writing its old values leads back. -/

namespace ByteMachine

/-! ### Differences -/

/-- What every cell holds; zero where there is no cell. -/
abbrev Contents := Place → Byte

namespace Place

/-- Every cell, registers first. -/
def all : List Place := (List.range 16).map .register ++ (List.range 256).map .memory

theorem mem_all {place : Place} : place ∈ all ↔ place.Exists := by
  cases place with
  | register index => simp [all, Exists]
  | memory address => simp [all, Exists]

theorem nodup_all : all.Nodup := by
  have hregisters : ((List.range 16).map register).Nodup :=
    List.Nodup.map (fun _ _ => register.inj) List.nodup_range
  have hmemory : ((List.range 256).map memory).Nodup :=
    List.Nodup.map (fun _ _ => memory.inj) List.nodup_range
  refine List.nodup_append.2 ⟨hregisters, hmemory, ?_⟩
  rintro _ hr _ hm rfl
  obtain ⟨i, -, rfl⟩ := List.mem_map.1 hr
  obtain ⟨a, -, h⟩ := List.mem_map.1 hm
  cases h

end Place

namespace Contents

/-- The cells that differ, with the values before and after. -/
def difference (old new : Contents) : List (Place × Change) :=
  Place.all.filterMap fun place => (Change.between (old place) (new place)).map (place, ·)

/-- Puts one value of each change into its cell. -/
def write (pick : Change → Byte) (changes : List (Place × Change)) (contents : Contents) :
    Contents :=
  changes.foldl (fun contents entry => Function.update contents entry.1 (pick entry.2)) contents

/-- Puts the new values in, in order. -/
def redo (changes : List (Place × Change)) (contents : Contents) : Contents :=
  write Change.new changes contents

/-- Puts the old values back, the latest change first. -/
def undo (changes : List (Place × Change)) (contents : Contents) : Contents :=
  write Change.old changes.reverse contents

theorem redo_append (xs ys : List (Place × Change)) (contents : Contents) :
    redo (xs ++ ys) contents = redo ys (redo xs contents) := List.foldl_append

theorem undo_append (xs ys : List (Place × Change)) (contents : Contents) :
    undo (xs ++ ys) contents = undo xs (undo ys contents) := by
  rw [undo, List.reverse_append]
  exact List.foldl_append

/-- Writing the values of `target` where it differs from `contents` gives `target`. -/
theorem write_eq {pick : Change → Byte} {target contents : Contents}
    {changes : List (Place × Change)} (hpick : ∀ entry ∈ changes, pick entry.2 = target entry.1)
    (hrest : ∀ place, place ∉ changes.map Prod.fst → contents place = target place) :
    write pick changes contents = target := by
  induction changes generalizing contents with
  | nil => exact funext fun place => hrest place (by simp)
  | cons entry changes ih =>
    rw [write, List.foldl_cons, ← write]
    refine ih (fun e he => hpick e (List.mem_cons_of_mem _ he)) fun place hplace => ?_
    by_cases heq : place = entry.1
    · rw [heq, Function.update_self, hpick entry List.mem_cons_self]
    · rw [Function.update_of_ne heq]
      exact hrest place (by simp [heq, hplace])

theorem mem_difference {old new : Contents} {place : Place} {change : Change} :
    (place, change) ∈ difference old new ↔
      place.Exists ∧ old place ≠ new place ∧ change = ⟨old place, new place⟩ := by
  simp only [difference, List.mem_filterMap, Option.map_eq_some_iff, Change.between]
  constructor
  · rintro ⟨p, hp, c, hc, heq⟩
    cases heq
    split at hc
    · cases hc
    · rename_i hne
      cases hc
      exact ⟨Place.mem_all.1 hp, hne, rfl⟩
  · rintro ⟨hp, hne, rfl⟩
    exact ⟨place, Place.mem_all.2 hp, _, if_neg hne, rfl⟩

theorem map_fst_difference (old new : Contents) :
    (difference old new).map Prod.fst = Place.all.filter fun place => old place ≠ new place := by
  rw [difference, List.map_filterMap, ← List.filterMap_eq_filter]
  apply List.filterMap_congr
  intro place _
  by_cases h : old place = new place <;> simp [Change.between, h, Option.guard]

theorem length_difference_le {old new : Contents} (place : Place)
    (h : ∀ other, other ≠ place → old other = new other) : (difference old new).length ≤ 1 := by
  rw [← List.length_map Prod.fst, map_fst_difference]
  have hsubset : (Place.all.filter fun place => old place ≠ new place) ⊆ [place] := by
    intro other hother
    rw [List.mem_singleton]
    by_contra hne
    simp [h other hne] at hother
  exact (List.Nodup.subperm (Place.nodup_all.filter _) hsubset).length_le

end Contents

namespace Store

open Contents

theorem value_of_not_exists (s : Store) {place : Place} (h : ¬ place.Exists) :
    s.value place = 0 := by
  cases place with
  | register index => exact Memory.read_of_le _ (Nat.not_lt.1 h)
  | memory address => exact Memory.read_of_le _ (Nat.not_lt.1 h)

theorem value_eq_of_notMem_difference (s t : Store) {place : Place}
    (h : place ∉ (difference s.value t.value).map Prod.fst) : s.value place = t.value place := by
  by_cases hp : place.Exists
  · by_contra hne
    exact h (List.mem_map.2 ⟨_, mem_difference.2 ⟨hp, hne, rfl⟩, rfl⟩)
  · rw [value_of_not_exists s hp, value_of_not_exists t hp]

theorem redo_difference (s t : Store) : redo (difference s.value t.value) s.value = t.value := by
  refine write_eq ?_ fun place => value_eq_of_notMem_difference s t
  rintro ⟨place, change⟩ hentry
  rw [(mem_difference.1 hentry).2.2]

theorem undo_difference (s t : Store) : undo (difference s.value t.value) t.value = s.value := by
  refine write_eq ?_ fun place hplace => ?_
  · rintro ⟨place, change⟩ hentry
    rw [(mem_difference.1 (List.mem_reverse.1 hentry)).2.2]
  · rw [List.map_reverse, List.mem_reverse] at hplace
    exact (value_eq_of_notMem_difference s t hplace).symm

/-! ### Execution -/

theorem value_put_eq (s : Store) {place : Place} (value : Byte) (h : place.Exists) :
    (s.put place value).value = Function.update s.value place value := by
  funext other
  by_cases hother : other = place
  · rw [hother, Function.update_self, value_put s value h]
  · rw [Function.update_of_ne hother, value_put_of_ne s value hother]

/-- What a word writes depends on the contents of the cells only. -/
theorem effect?_congr {s t : Store} (h : s.value = t.value) (word : Word) :
    s.effect? word = t.effect? word := by
  have hregisters : s.registers.read = t.registers.read := funext fun i => congrFun h (.register i)
  have hmemory : s.memory.read = t.memory.read := funext fun a => congrFun h (.memory a)
  rw [effect?, effect?, hregisters, hmemory]

/-- The contents after a word are those before it, but for one cell at most. -/
theorem value_apply (verbosity : Verbosity) (word : Word) (s : Store) :
    (s.apply verbosity word).state.value =
      match s.effect? word with
      | none => s.value
      | some (place, value) => Function.update s.value place value := by
  rw [apply_eq_perform]
  cases h : s.effect? word with
  | none => rfl
  | some effect => exact value_put_eq s effect.2 (exists_of_effect? h)

theorem length_difference_apply (verbosity : Verbosity) (word : Word) (s : Store) :
    (difference s.value (s.apply verbosity word).state.value).length ≤ 1 := by
  rw [value_apply]
  cases s.effect? word with
  | none => exact length_difference_le (.register 0) fun _ _ => rfl
  | some effect =>
    exact length_difference_le effect.1 fun place hplace => (Function.update_of_ne hplace _ _).symm

theorem state_apply_congr (verbosity verbosity' : Verbosity) (word : Word) (s : Store) :
    (s.apply verbosity word).state = (s.apply verbosity' word).state := by
  rw [apply_eq_perform, apply_eq_perform]

theorem status_apply_congr (verbosity verbosity' : Verbosity) (word : Word) (s t : Store) :
    (s.apply verbosity word).status = (t.apply verbosity' word).status := by
  have hs := s.status_apply verbosity word
  have ht := t.status_apply verbosity' word
  cases h : (t.apply verbosity' word).status with
  | halted => exact hs.2 (ht.1 h)
  | normal =>
    cases h' : (s.apply verbosity word).status with
    | normal => rfl
    | halted => exact absurd (ht.2 (hs.1 h')) (by rw [h]; decide)

theorem value_settle (s : Store) : s.settle.value = s.value := by
  funext place
  cases place with
  | register index => exact Memory.read_settle _ _
  | memory address => exact Memory.read_settle _ _

end Store

namespace Machine

/-- The machines agree in everything but what is pending. -/
structure SameContents (m m' : Machine) : Prop where
  value : m.value = m'.value
  pc : m.pc = m'.pc
  ir : m.ir = m'.ir

theorem SameContents.refl (m : Machine) : m.SameContents m := ⟨rfl, rfl, rfl⟩

theorem SameContents.settle_left {m m' : Machine} (h : m.SameContents m') :
    m.settle.SameContents m' :=
  ⟨(Store.value_settle m.toStore).trans h.value, h.pc, h.ir⟩

theorem state_execute_congr (verbosity verbosity' : Verbosity) (word : Word) (m : Machine) :
    (m.execute verbosity word).state = (m.execute verbosity' word).state := by
  rw [execute, execute, Store.state_apply_congr verbosity verbosity']

theorem status_execute_congr (verbosity verbosity' : Verbosity) (word : Word) (m : Machine) :
    (m.execute verbosity word).status = (m.execute verbosity' word).status :=
  Store.status_apply_congr verbosity verbosity' word m.toStore m.toStore

/-- Neither what is pending nor the verbosity matters to execution. -/
theorem execute_sameContents {m m' : Machine} (h : m.SameContents m')
    (verbosity verbosity' : Verbosity) (word : Word) :
    (m.execute verbosity word).status = (m'.execute verbosity' word).status ∧
      (m.execute verbosity word).state.SameContents (m'.execute verbosity' word).state := by
  have hvalue : (m.toStore.apply verbosity word).state.value =
      (m'.toStore.apply verbosity' word).state.value := by
    rw [Store.value_apply, Store.value_apply, Store.effect?_congr h.value, h.value]
  exact ⟨Store.status_apply_congr verbosity verbosity' word _ _, hvalue, h.pc, rfl⟩

end Machine

end ByteMachine
