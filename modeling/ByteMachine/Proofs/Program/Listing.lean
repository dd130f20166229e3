import ByteMachine.Proofs.Instruction.Text
import ByteMachine.Proofs.Program.StrictLoad
import ByteMachine.Proofs.Text.Quoted
import ByteMachine.Proofs.Text.Trim
import ByteMachine.Proofs.Token
import Mathlib.Data.List.Chain

/-! The text of a listing tells its items apart. Every item takes one line. The number of the line
ends with the first colon, and a token that is no word ends with the last blank that an opening
bracket follows, since no message holds these two one after the other. -/

namespace ByteMachine

open Text

namespace Token

/-! ### Messages -/

/-- The tokens denote the same word, or they are one text that denotes none. -/
def Alike (token token' : String) : Prop :=
  match parse token, parse token' with
  | .ok word, .ok word' => word = word'
  | .error _, .error _ => token = token'
  | .ok _, .error _ | .error _, .ok _ => False

theorem message_wrongLength (length : Nat) :
    (Error.wrongLength length).message = s!"Expected 4 hex digits, got {length} characters" := rfl

theorem message_invalidDigit (position : Nat) (found : Char) :
    (Error.invalidDigit position found).message =
      s!"Invalid hex digit {quoteChar found} at position {position}" := rfl

theorem newline_notMem_message (e : Error) : '\n' ∉ e.message.toList := by
  cases e with
  | wrongLength length =>
    have hlength := Numeral.newline_notMem_toDigits length
    simp [message_wrongLength, toString, hlength]
  | invalidDigit position found =>
    have hposition := Numeral.newline_notMem_toDigits position
    have hfound := newline_notMem_escape '\'' found
    simp [message_invalidDigit, toString, quoteChar, hposition, hfound]

end Token

/-! ### The end of an invalid token -/

namespace Listing

/-- No opening bracket comes right after a blank. -/
def Unmarked (cs : List Char) : Prop := cs.IsChain fun a b => b = '<' → a ≠ ' '

theorem unmarked_of_notMem {cs : List Char} (h : '<' ∉ cs) : Unmarked cs :=
  List.Pairwise.isChain <| List.pairwise_of_forall_mem_list fun _ _ _ hb heq =>
    absurd (heq ▸ hb) h

theorem unmarked_append {cs ds : List Char} (hcs : Unmarked cs) (hds : '<' ∉ ds) :
    Unmarked (cs ++ ds) :=
  List.IsChain.append hcs (unmarked_of_notMem hds) fun _ _ _ hd heq =>
    absurd (heq ▸ List.mem_of_mem_head? hd) hds

theorem not_unmarked (cs ds : List Char) : ¬ Unmarked (cs ++ ' ' :: '<' :: ds) := by
  intro h
  obtain ⟨-, h, -⟩ := List.isChain_append.1 h
  exact (List.isChain_cons_cons.1 h).1 rfl rfl

/-- The last blank with an opening bracket after it is found again. -/
theorem eq_of_last_mark {xs ys as bs : List Char} (ha : Unmarked as) (hb : Unmarked bs)
    (h : xs ++ ' ' :: '<' :: as = ys ++ ' ' :: '<' :: bs) : xs = ys := by
  have hnil : ∀ {zs cs ds : List Char}, Unmarked cs →
      ' ' :: '<' :: cs = zs ++ ' ' :: '<' :: ds → zs = [] := by
    intro zs cs ds hcs heq
    match zs with
    | [] => rfl
    | [z] => simp at heq
    | y :: z :: zs =>
      simp only [List.cons_append, List.cons.injEq] at heq
      exact absurd (heq.2.2 ▸ hcs) (not_unmarked zs ds)
  rcases List.append_eq_append_iff.1 h with ⟨zs, rfl, heq⟩ | ⟨zs, rfl, heq⟩
  · rw [hnil ha heq, List.append_nil]
  · rw [hnil hb heq, List.append_nil]

theorem unmarked_message (e : Token.Error) : Unmarked (e.message ++ ">").toList := by
  cases e with
  | wrongLength length =>
    apply unmarked_of_notMem
    have hlength : '<' ∉ Nat.toDigits 10 length := Numeral.notMem_toDigits (by decide) length
    simp [Token.message_wrongLength, toString, hlength]
  | invalidDigit position found =>
    have hposition : '<' ∉ Nat.toDigits 10 position := Numeral.notMem_toDigits (by decide) position
    by_cases hfound : found = '<'
    · -- the bracket that is quoted comes after a quote
      subst hfound
      have hchars : ((Token.Error.invalidDigit position '<').message ++ ">").toList =
          "Invalid hex digit '<' at position ".toList ++ (Nat.toDigits 10 position ++ ['>']) := by
        have hquoted : quoteChar '<' = "'<'" := by decide
        rw [Token.message_invalidDigit, hquoted]
        simp [toString]
      have hbefore : Unmarked "Invalid hex digit '<' at position ".toList := by
        unfold Unmarked
        decide
      rw [hchars]
      exact unmarked_append hbefore (by simp [hposition])
    · apply unmarked_of_notMem
      have hquoted : '<' ∉ (escape '\'' found).toList := fun h =>
        hfound (eq_of_mem_escape (by decide) h).symm
      simp [Token.message_invalidDigit, toString, quoteChar, hposition, hquoted]

/-! ### Bodies -/

/-- The item of a token that stands on the given line. -/
def Item.ofToken (line : Nat) (token : String) : Item := ⟨line, token, .ofToken token⟩

variable {line : Nat} {token : String} {word : Word} {cause : Token.Error}

theorem Item.body_of_word (h : Token.parse token = .ok word) :
    (Item.ofToken line token).body = s!"{Numeral.word word} {word.meaning}" := by
  unfold Item.body Item.ofToken Reading.ofToken Word.meaning
  rw [h]
  dsimp only
  cases Instruction.decode word with
  | ok i => rfl
  | error e => exact String.toList_inj.1 (by simp [toString])

theorem Item.body_of_error (h : Token.parse token = .error cause) :
    (Item.ofToken line token).body = s!"{token} <{cause.message}>" := by
  rw [Item.body, Item.ofToken, ofToken_of_error h]

theorem toList_body_of_error (token : String) (cause : Token.Error) :
    (s!"{token} <{cause.message}>").toList =
      token.toList ++ ' ' :: '<' :: (cause.message ++ ">").toList := by
  simp [toString]

/-- The body of a word is not that of a token that is no word. -/
theorem body_word_ne (word : Word) (h : Token.parse token = .error cause) :
    s!"{Numeral.word word} {word.meaning}" ≠ s!"{token} <{cause.message}>" := by
  intro heq
  have hchars : (Numeral.word word).toList ++ ' ' :: word.meaning.toList =
      token.toList ++ ' ' :: '<' :: (cause.message ++ ">").toList := by
    rw [← toList_body_of_error, ← heq]
    simp [toString]
  cases hdecode : Instruction.decode word with
  | ok i =>
    have hmeaning : word.meaning = i.text := by rw [Word.meaning, hdecode]
    have hword : '<' ∉ (Numeral.word word).toList := Numeral.notMem_hex (by decide) 4 _
    have htext : '<' ∉ i.text.toList := i.notMem_text (by decide)
    have hno : '<' ∉ (Numeral.word word).toList ++ ' ' :: i.text.toList := by simp [hword, htext]
    rw [hmeaning] at hchars
    rw [hchars] at hno
    exact hno (by simp)
  | error e =>
    have hmeaning : word.meaning.toList = '<' :: (e.message ++ ">").toList := by
      rw [Word.meaning, hdecode]
      simp [toString]
    have hmessage : '<' ∉ e.message.toList := e.notMem_message (by decide) (by decide)
    have hunmarked : Unmarked (e.message ++ ">").toList :=
      unmarked_of_notMem (by simpa using hmessage)
    rw [hmeaning] at hchars
    have htoken := eq_of_last_mark hunmarked (unmarked_message cause) hchars
    rw [← String.toList_inj.1 htoken, Token.parse_word] at h
    cases h

theorem body_word_inj {word other : Word} (h : s!"{Numeral.word word} {word.meaning}" =
    s!"{Numeral.word other} {other.meaning}") : word = other := by
  have hchars : (Numeral.word word).toList ++ ' ' :: word.meaning.toList =
      (Numeral.word other).toList ++ ' ' :: other.meaning.toList := by
    simpa [toString] using congrArg String.toList h
  have hlength : (Numeral.word word).toList.length = (Numeral.word other).toList.length := by
    rw [String.length_toList, String.length_toList, Numeral.length_word, Numeral.length_word]
  have htoken := String.toList_inj.1 (List.append_inj_left hchars hlength)
  exact Except.ok.inj ((Token.parse_word word).symm.trans (htoken ▸ Token.parse_word other))

theorem body_error_inj {token other : String} {cause reason : Token.Error}
    (h : s!"{token} <{cause.message}>" = s!"{other} <{reason.message}>") : token = other := by
  have hchars := congrArg String.toList h
  rw [toList_body_of_error, toList_body_of_error] at hchars
  exact String.toList_inj.1
    (eq_of_last_mark (unmarked_message cause) (unmarked_message reason) hchars)

theorem Item.body_eq_iff {line line' : Nat} {token token' : String} :
    (ofToken line token).body = (ofToken line' token').body ↔ Token.Alike token token' := by
  unfold Token.Alike
  cases h : Token.parse token with
  | ok word =>
    rw [body_of_word h]
    cases h' : Token.parse token' with
    | ok word' =>
      rw [body_of_word h']
      exact ⟨body_word_inj, fun heq => heq ▸ rfl⟩
    | error cause' =>
      rw [body_of_error h']
      exact iff_of_false (body_word_ne word h') id
  | error cause =>
    rw [body_of_error h]
    cases h' : Token.parse token' with
    | ok word' =>
      rw [body_of_word h']
      exact iff_of_false (body_word_ne word' h).symm id
    | error cause' =>
      rw [body_of_error h']
      refine ⟨body_error_inj, ?_⟩
      rintro rfl
      rw [Except.error.inj (h.symm.trans h')]

/-! ### Lines -/

theorem colon_notMem_column (line : Nat) : ':' ∉ (Numeral.column 4 line).toList :=
  Numeral.notMem_column (by decide) (by decide) 4 line

theorem Item.toList_text (item : Item) :
    item.text.toList =
      (Numeral.column 4 item.line).toList ++ ':' :: ' ' :: (item.body ++ "\n").toList := by
  simp [Item.text, toString]

/-- The first colon of a line ends its number. -/
theorem Item.text_eq_iff {i j : Item} : i.text = j.text ↔ i.line = j.line ∧ i.body = j.body := by
  constructor
  · intro h
    have hchars := congrArg String.toList h
    rw [toList_text, toList_text] at hchars
    obtain ⟨hcolumn, hrest⟩ :=
      eq_of_first_mark (colon_notMem_column i.line) (colon_notMem_column j.line) hchars
    refine ⟨Numeral.column_inj (String.toList_inj.1 hcolumn), String.toList_inj.1 ?_⟩
    simpa using hrest
  · rintro ⟨hline, hbody⟩
    rw [Item.text, Item.text, hline, hbody]

/-- The items stand on one line and have tokens that mean the same. -/
def Item.Agrees (i j : Item) : Prop := i.line = j.line ∧ Token.Alike i.token j.token

theorem Item.text_ofToken_eq_iff {line line' : Nat} {token token' : String} :
    (ofToken line token).text = (ofToken line' token').text ↔
      line = line' ∧ Token.Alike token token' :=
  text_eq_iff.trans (and_congr_right' body_eq_iff)

theorem newline_notMem_body {token : String} (h : '\n' ∉ token.toList) (line : Nat) :
    '\n' ∉ (Item.ofToken line token).body.toList := by
  cases hparse : Token.parse token with
  | ok word =>
    have hword := Numeral.newline_notMem_hex 4 word.toNat
    have hmeaning : '\n' ∉ word.meaning.toList :=
      word.notMem_meaning (by decide) (by decide) (by decide) (by decide)
    rw [Item.body_of_word hparse]
    simp [toString, Numeral.word, hword, hmeaning]
  | error cause =>
    have hmessage := Token.newline_notMem_message cause
    rw [Item.body_of_error hparse]
    simp [toString, h, hmessage]

theorem isLine_text {token : String} (h : '\n' ∉ token.toList) (line : Nat) :
    IsLine (Item.ofToken line token).text := by
  have hcolumn := Numeral.newline_notMem_column 4 (Item.ofToken line token).line
  have hbody := newline_notMem_body h line
  exact isLine_append_newline (by simp [toString, hcolumn, hbody])

/-! ### Items -/

theorem token?_subset {line token : String} (h : Program.token? line = some token) :
    token.toList ⊆ line.toList := by
  have htoken : token.toList = trimChars line.toList := by
    unfold Program.token? at h
    split at h
    · cases h
    · rename_i c cs hchars
      split at h
      · cases h
      · rw [← Option.some.inj h, String.toList_ofList, hchars]
  rw [htoken]
  exact trimChars_subset line.toList

/-- An item reads the token of a line. -/
theorem exists_of_mem_itemsFrom {first : Nat} {texts : List String} {item : Item}
    (h : item ∈ itemsFrom first texts) :
    ∃ text ∈ texts, Program.token? text = some item.token ∧
      item = Item.ofToken item.line item.token := by
  induction texts generalizing first with
  | nil => cases h
  | cons text texts ih =>
    rw [itemsFrom] at h
    cases htoken : Program.token? text with
    | none =>
      rw [htoken] at h
      obtain ⟨other, hother, hitem⟩ := ih h
      exact ⟨other, List.mem_cons_of_mem _ hother, hitem⟩
    | some token =>
      rw [htoken] at h
      rcases List.mem_cons.1 h with rfl | h
      · exact ⟨text, List.mem_cons_self, htoken, rfl⟩
      · obtain ⟨other, hother, hitem⟩ := ih h
        exact ⟨other, List.mem_cons_of_mem _ hother, hitem⟩

theorem eq_ofToken_of_mem_items {source : String} {item : Item} (h : item ∈ items source) :
    item = Item.ofToken item.line item.token ∧ '\n' ∉ item.token.toList := by
  obtain ⟨text, htext, htoken, hitem⟩ := exists_of_mem_itemsFrom h
  exact ⟨hitem, fun hmem => newline_notMem_of_mem_lines htext (token?_subset htoken hmem)⟩

theorem isLine_of_mem_items {source : String} {item : Item} (h : item ∈ items source) :
    IsLine item.text := by
  obtain ⟨hitem, hnewline⟩ := eq_ofToken_of_mem_items h
  rw [hitem]
  exact isLine_text hnewline item.line

theorem physicalLines_ofSource (source : String) :
    physicalLines (ofSource source) = (items source).map Item.text := by
  refine physicalLines_join fun line hline => ?_
  obtain ⟨item, hitem, rfl⟩ := List.mem_map.1 hline
  exact isLine_of_mem_items hitem

theorem text_eq_iff_agrees {s t : String} {i j : Item} (hi : i ∈ items s) (hj : j ∈ items t) :
    i.text = j.text ↔ i.Agrees j := by
  rw [(eq_ofToken_of_mem_items hi).1, (eq_ofToken_of_mem_items hj).1]
  exact Item.text_ofToken_eq_iff

/-! ### Listings -/

/-- Texts have the same listing exactly if their items agree one by one. A token that is no word is
found again in its line of the listing, which is one line for each item. -/
theorem ofSource_eq_iff_items_agree (s t : String) :
    (ofSource s = ofSource t ↔ List.Forall₂ Item.Agrees (items s) (items t)) ∧
    (physicalLines (ofSource s) = (items s).map Item.text ∧
      ∀ item ∈ items s, IsLine item.text) ∧
    ∀ token cause, Token.parse token = .error cause → ∀ line line' token',
      (Item.ofToken line token).text = (Item.ofToken line' token').text →
        line' = line ∧ token' = token := by
  refine ⟨?_, ⟨physicalLines_ofSource s, fun item => isLine_of_mem_items⟩, ?_⟩
  · have htexts : ofSource s = ofSource t ↔ (items s).map Item.text = (items t).map Item.text := by
      refine ⟨fun h => ?_, congrArg String.join⟩
      rw [← physicalLines_ofSource, ← physicalLines_ofSource, h]
    have hlines : List.Forall₂ (· = ·) ((items s).map Item.text) ((items t).map Item.text) ↔
        List.Forall₂ (fun i j => i.text = j.text) (items s) (items t) := by
      rw [List.forall₂_map_left_iff, List.forall₂_map_right_iff]
    rw [List.forall₂_eq_eq_eq] at hlines
    rw [htexts, hlines, List.forall₂_iff_zip, List.forall₂_iff_zip]
    refine and_congr_right' ⟨fun h i j hmem => ?_, fun h i j hmem => ?_⟩
    · obtain ⟨hi, hj⟩ := List.of_mem_zip hmem
      exact (text_eq_iff_agrees hi hj).1 (h hmem)
    · obtain ⟨hi, hj⟩ := List.of_mem_zip hmem
      exact (text_eq_iff_agrees hi hj).2 (h hmem)
  · intro token cause hparse line line' token' htext
    obtain ⟨hline, halike⟩ := Item.text_ofToken_eq_iff.1 htext
    refine ⟨hline.symm, ?_⟩
    unfold Token.Alike at halike
    rw [hparse] at halike
    cases hparse' : Token.parse token' with
    | ok word' =>
      rw [hparse'] at halike
      exact halike.elim
    | error cause' =>
      rw [hparse'] at halike
      exact halike.symm

/-- Two spellings of a word have one listing, and a token that imitates its line has another. -/
theorem ofSource_tells_imitation :
    Token.parse "C000 halt" = .error (.wrongLength 9) ∧
    ofSource "\n c000 \r\n" = ofSource "#\nC000" ∧
    ∀ line, (Item.ofToken line "C000 halt").text ≠ (Item.ofToken line "C000").text := by
  have himitation : Token.parse "C000 halt" = .error (.wrongLength 9) := by decide
  have hitems : items "\n c000 \r\n" = [Item.ofToken 2 "c000"] := by decide
  have hitems' : items "#\nC000" = [Item.ofToken 2 "C000"] := by decide
  have halike : Token.Alike "c000" "C000" := by
    have hlower : Token.parse "c000" = .ok 0xC000 := by decide
    have hupper : Token.parse "C000" = .ok 0xC000 := by decide
    rw [Token.Alike, hlower, hupper]
  obtain ⟨hlisting, -, htokens⟩ := ofSource_eq_iff_items_agree "\n c000 \r\n" "#\nC000"
  refine ⟨himitation, hlisting.2 ?_, fun line htext => ?_⟩
  · rw [hitems, hitems']
    exact .cons ⟨rfl, halike⟩ .nil
  · exact absurd (htokens _ _ himitation line line _ htext).2 (by decide)

end Listing

end ByteMachine
