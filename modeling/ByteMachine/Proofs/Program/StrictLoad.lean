import ByteMachine.Program.Listing
import ByteMachine.Proofs.Program.Content

/-! A strict load of a text takes the words of its listing, each with its line number, or fails with
the line, the token and the cause of the first item that is no word. Bytes that are no text fail at
the first line that either cannot be decoded or holds an invalid token. In no case is the input
touched or anything printed. -/

namespace ByteMachine

/-- The word that was read, whether or not it has an instruction. -/
def Reading.word? : Reading → Option Word
  | .instruction word _ | .unassigned word _ => some word
  | .invalid _ => none

namespace Listing

open Program (Content)

/-- What a strict load makes of an item. -/
def Item.programLine (item : Item) : Except LoadError ProgramLine :=
  match item.reading with
  | .instruction word _ | .unassigned word _ => .ok ⟨item.line, word⟩
  | .invalid cause => .error (.invalidLine item.line item.token cause)

/-! ### Items by the content of their line -/

theorem word?_ofToken {token : String} {word : Word} (h : Token.parse token = .ok word) :
    (Reading.ofToken token).word? = some word := by
  rw [Reading.ofToken, h]
  dsimp only
  split <;> rfl

theorem ofToken_of_error {token : String} {cause : Token.Error}
    (h : Token.parse token = .error cause) : Reading.ofToken token = .invalid cause := by
  rw [Reading.ofToken, h]

theorem programLine_of_word? {item : Item} {word : Word} (h : item.reading.word? = some word) :
    item.programLine = .ok ⟨item.line, word⟩ := by
  obtain ⟨line, token, reading⟩ := item
  cases reading with
  | instruction w i =>
    cases h
    rfl
  | unassigned w e =>
    cases h
    rfl
  | invalid cause => cases h

theorem itemsFrom_empty {text : String} (h : Content.ofText text = .empty) (n : Nat)
    (texts : List String) :
    itemsFrom n (Text.withoutEnd text :: texts) = itemsFrom (n + 1) texts := by
  have htoken : Program.token? (Text.withoutEnd text) = none := Content.fits_of_ofText h
  rw [itemsFrom, htoken]

theorem itemsFrom_word {text : String} {word : Word} (h : Content.ofText text = .word word)
    (n : Nat) (texts : List String) :
    ∃ item : Item, item.programLine = .ok ⟨n, word⟩ ∧
      itemsFrom n (Text.withoutEnd text :: texts) = item :: itemsFrom (n + 1) texts := by
  obtain ⟨token, htoken, hparse⟩ := Content.fits_of_ofText h
  rw [itemsFrom, htoken]
  exact ⟨_, programLine_of_word? (word?_ofToken hparse), rfl⟩

theorem itemsFrom_invalid {text token : String} {cause : Token.Error}
    (h : Content.ofText text = .invalid token cause) (n : Nat) (texts : List String) :
    itemsFrom n (Text.withoutEnd text :: texts) =
      ⟨n, token, .invalid cause⟩ :: itemsFrom (n + 1) texts := by
  obtain ⟨htoken, hparse⟩ := Content.fits_of_ofText h
  rw [itemsFrom, htoken]
  dsimp only
  rw [ofToken_of_error hparse]

/-! ### The first invalid item -/

/-- Taking every item's word gives all of them in order, or fails at the first that has none. -/
theorem mapM_programLine (items : List Item) :
    match items.find? fun item => item.reading.word?.isNone with
    | none => ∃ program, items.mapM Item.programLine = .ok program ∧
        program.map (fun entry => (entry.line, some entry.word)) =
          items.map fun item => (item.line, item.reading.word?)
    | some item => ∃ cause, item.reading = .invalid cause ∧
        items.mapM Item.programLine = .error (.invalidLine item.line item.token cause) := by
  induction items with
  | nil => exact ⟨[], rfl, rfl⟩
  | cons item items ih =>
    rw [List.mapM_cons, List.find?_cons]
    cases hword : item.reading.word? with
    | none =>
      obtain ⟨line, token, reading⟩ := item
      cases reading with
      | invalid cause => exact ⟨cause, rfl, rfl⟩
      | instruction w i => cases hword
      | unassigned w e => cases hword
    | some word =>
      rw [programLine_of_word? hword]
      simp only [Option.isNone_some]
      revert ih
      cases items.find? fun item => item.reading.word?.isNone with
      | none =>
        rintro ⟨program, hmap, hpairs⟩
        refine ⟨⟨item.line, word⟩ :: program, ?_, ?_⟩
        · rw [hmap]
          rfl
        · simp [hpairs, hword]
      | some first =>
        rintro ⟨cause, hreading, hmap⟩
        refine ⟨cause, hreading, ?_⟩
        rw [hmap]
        rfl

end Listing

namespace Program

variable {policy : InvalidLinePolicy} {verbosity : Verbosity} {line : Nat} {bytes : Bytes}

/-! ### Strict lines -/

theorem loadFrom_invalid_strict {token : String} {cause : Token.Error}
    (h : Content.ofBytes bytes = .invalid token cause) (rest replies : List Bytes) :
    loadFrom .strict verbosity line (bytes :: rest) replies =
      .done (.error (.invalidLine line token cause)) replies := by
  rw [loadFrom_invalid h]
  exact Attempt.done_error_andThen _ _ _

/-- Nothing is printed and no reply taken unless the user is asked about an invalid line. -/
theorem loadFrom_silent (policy : InvalidLinePolicy) (verbosity : Verbosity) (line : Nat)
    {lines : List Bytes}
    (h : ∀ bytes ∈ lines, ∀ token cause,
      Content.ofBytes bytes = .invalid token cause → policy = .strict) (replies : List Bytes) :
    (loadFrom policy verbosity line lines replies).output = "" ∧
      (loadFrom policy verbosity line lines replies).unread = replies := by
  induction lines generalizing line with
  | nil => exact ⟨rfl, rfl⟩
  | cons bytes rest ih =>
    have hrest := ih (line + 1) fun b hb => h b (List.mem_cons_of_mem _ hb)
    cases hc : Content.ofBytes bytes with
    | illFormed =>
      rw [loadFrom_illFormed hc]
      exact ⟨rfl, rfl⟩
    | empty =>
      rw [loadFrom_empty hc]
      exact hrest
    | word word =>
      obtain ⟨houtput, hunread⟩ := hrest
      rw [loadFrom_word hc]
      exact ⟨by simp [loadRest, houtput], by simp [loadRest, hunread]⟩
    | invalid token cause =>
      obtain rfl := h bytes List.mem_cons_self token cause hc
      rw [loadFrom_invalid_strict hc]
      exact ⟨rfl, rfl⟩

/-- On encoded lines, loading strictly is taking the word of every item. -/
theorem result_loadFrom_strict (verbosity : Verbosity) (line : Nat) (texts : List String)
    (replies : List Bytes) :
    (loadFrom .strict verbosity line (texts.map Bytes.encode) replies).result =
      (Listing.itemsFrom line (texts.map Text.withoutEnd)).mapM Listing.Item.programLine := by
  induction texts generalizing line with
  | nil => rfl
  | cons text texts ih =>
    rw [List.map_cons, List.map_cons]
    have hbytes := Content.ofBytes_encode text
    cases h : Content.ofText text with
    | illFormed => exact absurd h (Content.ofText_ne_illFormed text)
    | empty => rw [loadFrom_empty (hbytes.trans h), Listing.itemsFrom_empty h, ih]
    | word word =>
      obtain ⟨item, hitem, hitems⟩ := Listing.itemsFrom_word h line (texts.map Text.withoutEnd)
      rw [loadFrom_word (hbytes.trans h), hitems, List.mapM_cons, hitem, loadRest]
      simp only [Attempt.result_after, Attempt.result_map, ih]
      rfl
    | invalid token cause =>
      rw [loadFrom_invalid_strict (hbytes.trans h), Listing.itemsFrom_invalid h, List.mapM_cons]
      rfl

/-- Lines that are accepted only move on the line number at which a load fails. -/
theorem result_loadFrom_append {before : List Bytes}
    (h : ∀ bytes ∈ before, (Content.ofBytes bytes).isAccepted = true) {rest replies : List Bytes}
    {e : LoadError}
    (hrest : (loadFrom policy verbosity (line + before.length) rest replies).result = .error e) :
    (loadFrom policy verbosity line (before ++ rest) replies).result = .error e := by
  induction before generalizing line with
  | nil => exact hrest
  | cons bytes before ih =>
    have hbytes := h bytes List.mem_cons_self
    have htail : (loadFrom policy verbosity (line + 1) (before ++ rest) replies).result =
        .error e := by
      apply ih fun b hb => h b (List.mem_cons_of_mem _ hb)
      rwa [List.length_cons, Nat.add_comm before.length, ← Nat.add_assoc] at hrest
    rw [List.cons_append]
    rcases Content.of_isAccepted hbytes with hc | ⟨word, hc⟩
    · rw [loadFrom_empty hc]
      exact htail
    · rw [loadFrom_word hc, loadRest, Attempt.result_after, Attempt.result_map, htail]
      rfl

/-- Bytes that are no text have a line that is not accepted, and a first one. -/
theorem exists_first_fault {source : Bytes} {e : ReadError} (h : source.decode = .error e) :
    ∃ before bytes after, source.physicalLines = before ++ bytes :: after ∧
      (∀ line ∈ before, (Content.ofBytes line).isAccepted = true) ∧
      (Content.ofBytes bytes).isAccepted = false := by
  have hline : ∃ line ∈ source.physicalLines, Content.ofBytes line = .illFormed := by
    apply Classical.byContradiction
    intro hall
    have hdecodes : ∀ line ∈ source.physicalLines, ∃ s, Bytes.encode s = line := by
      intro line hline
      apply Classical.byContradiction
      intro hno
      exact hall ⟨line, hline, Content.ofBytes_eq_illFormed_iff.2 fun s hs => hno ⟨s, hs⟩⟩
    obtain ⟨s, hs⟩ := Bytes.exists_encode_flatten hdecodes
    rw [Bytes.flatten_physicalLines, ← Bytes.decode_eq_ok_iff, h] at hs
    cases hs
  obtain ⟨line, hmem, hill⟩ := hline
  have hsome : (source.physicalLines.find? fun b => !(Content.ofBytes b).isAccepted).isSome := by
    rw [List.find?_isSome]
    exact ⟨line, hmem, by rw [hill]; rfl⟩
  obtain ⟨bytes, hfind⟩ := Option.isSome_iff_exists.1 hsome
  obtain ⟨hbytes, before, after, hsplit, hbefore⟩ := List.find?_eq_some_iff_append.1 hfind
  exact ⟨before, bytes, after, hsplit, by simpa using hbefore, by simpa using hbytes⟩

theorem load_strict_silent (verbosity : Verbosity) (source input : Bytes) :
    (load .strict verbosity source input).output = "" ∧
      (load .strict verbosity source input).rest = input := by
  obtain ⟨houtput, hunread⟩ := loadFrom_silent .strict verbosity 1
    (fun bytes _ token cause _ => rfl) input.physicalLines
  refine ⟨houtput, ?_⟩
  dsimp only [load]
  rw [hunread, Bytes.flatten_physicalLines]

/-! ### Loading and listing -/

theorem load_strict_eq (verbosity : Verbosity) (source input : Bytes) {text : String}
    (h : source.decode = .ok text) :
    (load .strict verbosity source input).program =
      (Listing.items text).mapM Listing.Item.programLine := by
  rw [← Bytes.decode_eq_ok_iff.1 h]
  dsimp only [load]
  rw [Bytes.physicalLines_encode, result_loadFrom_strict, Listing.items, Text.lines_eq]

/-- A strict load and the listing agree on every source. -/
theorem load_strict_agrees_with_listing (verbosity : Verbosity) (source input : Bytes) :
    let result := load .strict verbosity source input
    result.output = "" ∧ result.rest = input ∧
      match source.decode with
      | .ok text =>
        match (Listing.items text).find? fun item => item.reading.word?.isNone with
        | none => ∃ program, result.program = .ok program ∧
            program.map (fun entry => (entry.line, some entry.word)) =
              (Listing.items text).map fun item => (item.line, item.reading.word?)
        | some item => ∃ cause, item.reading = .invalid cause ∧
            result.program = .error (.invalidLine item.line item.token cause)
      | .error _ =>
        ∃ before bytes after, source.physicalLines = before ++ bytes :: after ∧
          (∀ line ∈ before, (Content.ofBytes line).isAccepted = true) ∧
          match Content.ofBytes bytes with
          | .illFormed => result.program = .error (.unreadable .invalidEncoding)
          | .invalid token cause =>
            result.program = .error (.invalidLine (before.length + 1) token cause)
          | .empty | .word _ => False := by
  obtain ⟨houtput, hunread⟩ := loadFrom_silent .strict verbosity 1
    (fun bytes _ token cause _ => rfl) input.physicalLines
  refine ⟨houtput, ?_, ?_⟩
  · dsimp only [load]
    rw [hunread, Bytes.flatten_physicalLines]
  cases hdecode : source.decode with
  | ok text =>
    dsimp only
    rw [load_strict_eq verbosity source input hdecode]
    exact Listing.mapM_programLine _
  | error e =>
    obtain ⟨before, bytes, after, hsplit, hbefore, hbytes⟩ := exists_first_fault hdecode
    refine ⟨before, bytes, after, hsplit, hbefore, ?_⟩
    dsimp only [load]
    rw [hsplit]
    rcases Content.of_not_isAccepted hbytes with hc | ⟨token, cause, hc⟩
    · rw [hc]
      apply result_loadFrom_append hbefore
      rw [loadFrom_illFormed hc]
      rfl
    · rw [hc]
      apply result_loadFrom_append hbefore
      rw [loadFrom_invalid_strict hc, Nat.add_comm 1]
      rfl

/-! ### The lines of a program -/

/-- The lines, the first of which has number `n`, hold the words of a program and no other token. -/
inductive Reads : Nat → List String → List ProgramLine → Prop
  | nil (n : Nat) : Reads n [] []
  | skip {n : Nat} {text : String} {texts : List String} {program : List ProgramLine}
      (htoken : token? text = none) (hrest : Reads (n + 1) texts program) :
      Reads n (text :: texts) program
  | word {n : Nat} {text token : String} {word : Word} {texts : List String}
      {program : List ProgramLine} (htoken : token? text = some token)
      (hparse : Token.parse token = .ok word) (hrest : Reads (n + 1) texts program) :
      Reads n (text :: texts) (⟨n, word⟩ :: program)

theorem reads_of_mapM {n : Nat} {texts : List String} {program : List ProgramLine}
    (h : (Listing.itemsFrom n texts).mapM Listing.Item.programLine = .ok program) :
    Reads n texts program := by
  induction texts generalizing n program with
  | nil =>
    cases h
    exact .nil n
  | cons text texts ih =>
    rw [Listing.itemsFrom] at h
    cases htoken : token? text with
    | none =>
      rw [htoken] at h
      exact .skip htoken (ih h)
    | some token =>
      rw [htoken] at h
      dsimp only at h
      rw [List.mapM_cons] at h
      cases hparse : Token.parse token with
      | error cause =>
        rw [Listing.ofToken_of_error hparse] at h
        cases h
      | ok word =>
        rw [Listing.programLine_of_word? (Listing.word?_ofToken hparse)] at h
        cases hrest : (Listing.itemsFrom (n + 1) texts).mapM Listing.Item.programLine with
        | error e =>
          rw [hrest] at h
          cases h
        | ok rest =>
          rw [hrest] at h
          cases h
          exact .word htoken hparse (ih hrest)

/-- What is loaded strictly is what the lines of the text hold. -/
theorem reads_of_load {verbosity : Verbosity} {text : String} {input : Bytes}
    {program : List ProgramLine}
    (h : (load .strict verbosity (Bytes.encode text) input).program = .ok program) :
    Reads 1 (Text.lines text) program := by
  rw [load_strict_eq verbosity _ input (Bytes.decode_encode text)] at h
  exact reads_of_mapM h

namespace Reads

variable {n : Nat} {texts before after : List String} {program program' : List ProgramLine}

theorem unique (h : Reads n texts program) (h' : Reads n texts program') :
    program = program' := by
  induction h generalizing program' with
  | nil n =>
    cases h'
    rfl
  | skip htoken _ ih =>
    cases h' with
    | skip _ hrest => exact ih hrest
    | word htoken' _ _ => rw [htoken] at htoken'; cases htoken'
  | word htoken hparse _ ih =>
    cases h' with
    | skip htoken' _ => rw [htoken] at htoken'; cases htoken'
    | word htoken' hparse' hrest =>
      cases htoken.symm.trans htoken'
      cases hparse.symm.trans hparse'
      rw [ih hrest]

/-- Some lines at the front hold the front of the program. -/
theorem split (h : Reads n (before ++ after) program) :
    ∃ front rest, program = front ++ rest ∧ Reads n before front ∧
      Reads (n + before.length) after rest := by
  induction before generalizing n program with
  | nil => exact ⟨[], program, rfl, .nil n, h⟩
  | cons text before ih =>
    have hn : n + (text :: before).length = n + 1 + before.length := by
      rw [List.length_cons]
      omega
    rw [hn]
    cases h with
    | skip htoken hrest =>
      obtain ⟨front, rest, rfl, hfront, hafter⟩ := ih hrest
      exact ⟨front, rest, rfl, .skip htoken hfront, hafter⟩
    | word htoken hparse hrest =>
      obtain ⟨front, rest, rfl, hfront, hafter⟩ := ih hrest
      exact ⟨_ :: front, rest, rfl, .word htoken hparse hfront, hafter⟩

theorem length_eq (h : Reads n texts program) :
    program.length = texts.countP fun text => (token? text).isSome := by
  induction h with
  | nil n => rfl
  | skip htoken _ ih => rw [List.countP_cons_of_neg (by simp [htoken]), ih]
  | word htoken _ _ ih => rw [List.countP_cons_of_pos (by simp [htoken]), List.length_cons, ih]

end Reads

end Program

end ByteMachine
