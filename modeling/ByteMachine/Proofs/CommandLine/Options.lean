import ByteMachine.CommandLine.Emulate
import Mathlib.Data.List.TakeWhile

/-! Which flags a command line gives. One that has no short form is given exactly if it stands,
spelled out, before the first separator. Two of these flags choose how a program is loaded. -/

namespace ByteMachine.CommandLine

/-! ### Steps that may stop -/

section

variable {α β ε ε' : Type} {x : Except ε α}

theorem bind_eq_ok_iff {f : α → Except ε β} {b : β} :
    (x >>= f) = .ok b ↔ ∃ a, x = .ok a ∧ f a = .ok b := by
  cases x <;> simp [bind, Except.bind]

theorem mapError_eq_ok_iff {f : ε → ε'} {a : α} : x.mapError f = .ok a ↔ x = .ok a := by
  cases x with
  | ok b => exact ⟨fun h => by cases h; rfl, fun h => by cases h; rfl⟩
  | error e => exact iff_of_false (fun h => by cases h) (fun h => by cases h)

end

/-! ### Forms of arguments -/

namespace Form

theorem of_eq_separator_iff {arg : String} : Form.of arg = .separator ↔ arg = "--" := by
  constructor
  · intro h
    unfold Form.of at h
    split at h
    · rename_i hchars
      exact String.toList_inj.1 hchars
    all_goals cases h
  · rintro rfl
    rfl

/-- The long form of a switch, without a value. -/
theorem of_eq_long_iff {arg name : String} :
    Form.of arg = .long name none ↔ arg = "--" ++ name ∧ name ≠ "" ∧ '=' ∉ name.toList := by
  constructor
  · intro h
    unfold Form.of at h
    split at h
    · cases h
    · rename_i cs hlong hchars
      injection h with hname hvalue
      have hdrop : cs.dropWhile (· != '=') = [] := by
        split at hvalue
        · assumption
        · cases hvalue
      rw [List.dropWhile_eq_nil_iff] at hdrop
      rw [List.takeWhile_eq_self_iff.2 hdrop] at hname
      subst hname
      refine ⟨String.toList_inj.1 ?_, ?_, ?_⟩
      · simp [hchars]
      · intro hempty
        exact hlong (String.ofList_eq_empty_iff.1 hempty)
      · rw [String.toList_ofList]
        intro hmem
        simpa using hdrop '=' hmem
    · cases h
    · cases h
  · rintro ⟨rfl, hne, hno⟩
    have hall : ∀ c ∈ name.toList, (c != '=') = true := fun c hc =>
      bne_iff_ne.2 fun heq => hno (heq ▸ hc)
    have hchars : ("--" ++ name).toList = '-' :: '-' :: name.toList := by simp
    have hnil : name.toList ≠ [] := by simpa using hne
    obtain ⟨c, cs, hcs⟩ := List.exists_cons_of_ne_nil hnil
    rw [hcs] at hall hchars
    simp only [Form.of, hchars]
    rw [List.dropWhile_eq_nil_iff.2 hall, List.takeWhile_eq_self_iff.2 hall, ← hcs,
      String.ofList_toList]

end Form

/-! ### One argument -/

namespace Given

variable {given given' : Given} {name : String}

/-- A step that says nothing of the flag and is no separator. -/
structure Passes (name : String) (given given' : Given) : Prop where
  flags : name ∈ given'.flags ↔ name ∈ given.flags
  literal : given'.literal = given.literal

theorem Passes.refl (name : String) (given : Given) : given.Passes name given := ⟨.rfl, rfl⟩

theorem passes_addValue {long value : String} (h : given.addValue long value = .ok given') :
    Passes name given given' := by
  unfold addValue at h
  split at h
  · cases h
  · cases h
    exact ⟨.rfl, rfl⟩

theorem passes_addPositional {limit : Nat} {arg : String}
    (h : given.addPositional limit arg = .ok given') : Passes name given given' := by
  unfold addPositional at h
  split at h
  · cases h
  · cases h
    exact ⟨.rfl, rfl⟩

theorem eq_of_addFlag {long : String} (h : given.addFlag long = .ok given') :
    given' = { given with flags := long :: given.flags } := by
  unfold addFlag at h
  split at h
  · cases h
  · cases h
    rfl

end Given

namespace Interface

open Given

variable {interface : Interface} {given given' : Given} {name : String}

/-- The name is that of a flag without a short form. -/
structure LongOnly (interface : Interface) (name : String) : Prop where
  ne_empty : name ≠ ""
  no_value : '=' ∉ name.toList
  eq_of_mem : ∀ switch ∈ interface.switches, switch.long = name → switch = ⟨name, none, .flag⟩

theorem passes_takeShort (hname : interface.LongOnly name) {cluster : List Char}
    (h : interface.takeShort given cluster = .ok given') : Passes name given given' := by
  induction cluster generalizing given with
  | nil =>
    cases h
    exact .refl name _
  | cons c cs ih =>
    rw [takeShort] at h
    split at h
    · cases h
    · cases h
    · rename_i long short hfind
      have hne : name ≠ long := by
        rintro rfl
        have heq := hname.eq_of_mem _ (List.mem_of_find?_eq_some hfind) rfl
        cases heq
        simpa using List.find?_some hfind
      obtain ⟨mid, hadd, h⟩ := bind_eq_ok_iff.1 h
      obtain ⟨hflags, hliteral⟩ := ih h
      rw [eq_of_addFlag hadd] at hflags hliteral
      exact ⟨hflags.trans (List.mem_cons.trans (or_iff_right hne)), hliteral⟩
    · split at h
      · cases h
        exact ⟨.rfl, rfl⟩
      · exact passes_addValue h
      · exact passes_addValue h

theorem flags_takeLong (hname : interface.LongOnly name) {long : String} {value? : Option String}
    (h : interface.takeLong given long value? = .ok given') :
    (name ∈ given'.flags ↔ name ∈ given.flags ∨ long = name ∧ value? = none) ∧
      given'.literal = given.literal := by
  unfold takeLong at h
  split at h
  · cases h
  · rw [eq_of_addFlag h, List.mem_cons, or_comm, eq_comm]
    simp
  · cases h
  · rename_i _ _ hfind
    cases h
    -- a switch that waits for a value is not the flag
    have hne : long ≠ name := by
      intro heq
      have hlong := List.find?_some hfind
      have hflag := hname.eq_of_mem _ (List.mem_of_find?_eq_some hfind)
        ((beq_iff_eq.1 hlong).trans heq)
      cases hflag
    simp [await, hne]
  · obtain ⟨hflags, hliteral⟩ : Passes name given given' := passes_addValue h
    simp [hflags, hliteral]
  · cases h

/-- An argument gives the flag if it is the long form and no separator came before. -/
theorem flags_take (hname : interface.LongOnly name) {arg : String}
    (h : interface.take given arg = .ok given') :
    (name ∈ given'.flags ↔ name ∈ given.flags ∨ given.literal = false ∧ "--" ++ name = arg) ∧
      (given'.literal = true ↔ given.literal = true ∨ arg = "--") := by
  have hlong : "--" ++ name = arg ↔ Form.of arg = .long name none := by
    rw [Form.of_eq_long_iff]
    exact ⟨fun heq => ⟨heq.symm, hname.ne_empty, hname.no_value⟩, fun heq => heq.1.symm⟩
  rw [hlong, ← Form.of_eq_separator_iff]
  unfold take at h
  generalize Form.of arg = form at h
  -- the cases of `take`: what is awaited, whether a separator was met, and the form
  split at h
  · obtain ⟨hflags, hsame⟩ : Passes name given given' := passes_addValue h
    simp [hflags, hsame]
  · cases h
  · rename_i hliteral
    obtain ⟨hflags, hsame⟩ : Passes name given given' := passes_addPositional h
    simp [hflags, hsame, hliteral]
  · cases h
    simp
  · rename_i hliteral
    obtain ⟨hflags, hsame⟩ := flags_takeLong hname h
    simp [hflags, hsame, hliteral]
  · obtain ⟨hflags, hsame⟩ := passes_takeShort hname h
    simp [hflags, hsame]
  · obtain ⟨hflags, hsame⟩ : Passes name given given' := passes_addPositional h
    simp [hflags, hsame]

/-- What arguments add in turn. -/
theorem flags_foldlM_take (hname : interface.LongOnly name) {args : List String}
    (h : args.foldlM interface.take given = .ok given') :
    name ∈ given'.flags ↔ name ∈ given.flags ∨
      given.literal = false ∧ "--" ++ name ∈ args.takeWhile (· != "--") := by
  induction args generalizing given with
  | nil =>
    cases h
    simp
  | cons arg args ih =>
    rw [List.foldlM_cons] at h
    obtain ⟨mid, hfirst, hrest⟩ := bind_eq_ok_iff.1 h
    obtain ⟨hflags, hliteral⟩ := flags_take hname hfirst
    rw [ih hrest, hflags, List.takeWhile_cons]
    by_cases harg : arg = "--"
    · have hne : "--" ++ name ≠ "--" := fun heq =>
        hname.ne_empty (by simpa using congrArg String.toList heq)
      have hmid : mid.literal = true := hliteral.2 (.inr harg)
      simp [harg, hne, hmid]
    · have hmid : mid.literal = given.literal := by
        rw [Bool.eq_iff_iff, hliteral, or_iff_left harg]
      rw [hmid, if_pos (bne_iff_ne.2 harg), List.mem_cons, or_assoc, ← and_or_left]

/-- On a command line that is accepted a flag without a short form is given exactly if its long form
stands before the first separator. -/
theorem flag_parse_iff (hname : interface.LongOnly name) {args : List String}
    (h : interface.parse args = .ok given) :
    given.flag name = true ↔ "--" ++ name ∈ args.takeWhile (· != "--") := by
  obtain ⟨taken, htaken, h⟩ := bind_eq_ok_iff.1 h
  have hgiven : taken = given := by
    split at h
    · cases h
    · cases h
      rfl
  rw [hgiven] at htaken
  have hflags := flags_foldlM_take hname htaken
  rw [Given.flag, List.contains_iff_mem, hflags]
  simp [Given.start]

end Interface

/-! ### The options of the emulator -/

namespace Emulate

theorem longOnly_strict : interface.LongOnly "strict" := ⟨by decide, by decide, by decide⟩

theorem longOnly_prompt : interface.LongOnly "prompt" := ⟨by decide, by decide, by decide⟩

/-- On a command line that is accepted a strict load and prompts are asked for in full, and not
both. -/
theorem Options.load_flags_of_parse {args : List String} {options : Options}
    (h : Options.parse args = .ok options) :
    (options.strict = true ↔ "--strict" ∈ args.takeWhile (· != "--")) ∧
    (options.prompt = true ↔ "--prompt" ∈ args.takeWhile (· != "--")) ∧
    (options.strict = false ∨ options.prompt = false) := by
  obtain ⟨given, hgiven, h⟩ := bind_eq_ok_iff.1 h
  have hstrict : given.flag "strict" = true ↔ "--strict" ∈ args.takeWhile (· != "--") :=
    interface.flag_parse_iff longOnly_strict hgiven
  have hprompt : given.flag "prompt" = true ↔ "--prompt" ∈ args.takeWhile (· != "--") :=
    interface.flag_parse_iff longOnly_prompt hgiven
  change (if given.flag "strict" && given.flag "prompt" then _ else _) = _ at h
  split at h
  · cases h
  · rename_i hboth
    cases h
    exact ⟨hstrict, hprompt, Bool.and_eq_false_iff.1 (Bool.eq_false_iff.2 hboth)⟩

/-- Where strict loads and prompts are not asked for at once, the flag for prompts decides. -/
theorem Options.policy_eq {options : Options}
    (h : options.strict = false ∨ options.prompt = false) :
    options.policy = if options.prompt then .prompt else .strict := by
  rw [policy]
  rcases h with h | h
  · rw [h, if_neg Bool.false_ne_true]
  · rw [h, if_neg Bool.false_ne_true, ite_self]

end Emulate

end ByteMachine.CommandLine
