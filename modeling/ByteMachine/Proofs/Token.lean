import ByteMachine.Proofs.Text.Numeral
import ByteMachine.Token

/-! Which texts are tokens. A token is four hexadecimal digits of either case; of its word they are
the numeral, but for the case, so every word has a token. Another text is refused for its length,
and else for its first character that is no digit. -/

namespace ByteMachine

namespace Token

theorem isSome_digit?_of_readDigits {cs : List Char} {position value n : Nat}
    (h : readDigits position value cs = .ok n) :
    ∀ c ∈ cs, (Numeral.digit? 16 c).isSome = true := by
  induction cs generalizing position value with
  | nil => simp
  | cons c cs ih =>
    rw [readDigits] at h
    split at h
    · cases h
    · rename_i d hd
      intro x hx
      rcases List.mem_cons.1 hx with rfl | hx
      · rw [hd]
        rfl
      · exact ih h x hx

/-- A token has hexadecimal digits only. -/
theorem isSome_digit?_of_parse {token : String} {word : Word} (h : parse token = .ok word) :
    ∀ c ∈ token.toList, (Numeral.digit? 16 c).isSome = true := by
  unfold parse at h
  split at h
  · cases hread : readDigits 0 0 token.toList with
    | ok n => exact isSome_digit?_of_readDigits hread
    | error e =>
      rw [hread] at h
      cases h
  · cases h

theorem isBlank_of_parse {token : String} {word : Word} (h : parse token = .ok word) :
    ∀ c ∈ token.toList, Text.isBlank c = false := fun c hc =>
  Numeral.isBlank_of_isSome_digit? (isSome_digit?_of_parse h c hc)

theorem length_of_parse {token : String} {word : Word} (h : parse token = .ok word) :
    token.length = 4 := by
  unfold parse at h
  split at h
  · assumption
  · cases h

/-! ### The opcode of a token -/

/-- Digits that are appended leave those before them as they are. -/
theorem div_of_readDigits {cs : List Char} {position value n : Nat}
    (h : readDigits position value cs = .ok n) : n / Nat.pow 16 cs.length = value := by
  induction cs generalizing position value with
  | nil =>
    cases h
    exact Nat.div_one n
  | cons c cs ih =>
    rw [readDigits] at h
    split at h
    · cases h
    · rename_i d hd
      have hlt := Numeral.digit?_lt hd
      have hpow : Nat.pow 16 (c :: cs).length = Nat.pow 16 cs.length * 16 := rfl
      rw [hpow, ← Nat.div_div_eq_div_mul, ih h]
      omega

theorem readDigits_of_parse {token : String} {word : Word} (h : parse token = .ok word) :
    readDigits 0 0 token.toList = .ok word.toNat := by
  have hlength : token.toList.length = 4 := String.length_toList.trans (length_of_parse h)
  unfold parse at h
  rw [if_pos (length_of_parse h)] at h
  cases hread : readDigits 0 0 token.toList with
  | error e =>
    rw [hread] at h
    cases h
  | ok n =>
    rw [hread] at h
    have hword : UInt16.ofNat n = word := Except.ok.inj h
    have hdigits : n / 65536 = 0 := by
      have hall := div_of_readDigits hread
      rwa [hlength] at hall
    rw [← hword, UInt16.toNat_ofNat_of_lt' (by simp only [UInt16.size]; omega)]

/-- The first digit of a token is the opcode of its word. -/
theorem digit?_head_of_parse {token : String} {word : Word} (h : parse token = .ok word) :
    ∃ c, token.toList.head? = some c ∧ Numeral.digit? 16 c = some (Word.opcode word) := by
  have hlength : token.toList.length = 4 := String.length_toList.trans (length_of_parse h)
  have hread := readDigits_of_parse h
  cases hchars : token.toList with
  | nil =>
    rw [hchars] at hlength
    cases hlength
  | cons c cs =>
    have hcs : cs.length = 3 := by simpa [hchars] using hlength
    rw [hchars, readDigits] at hread
    split at hread
    · cases hread
    · rename_i d hd
      have hfirst : word.toNat / 4096 = d := by
        have hrest := div_of_readDigits hread
        rwa [hcs, Nat.zero_mul, Nat.zero_add] at hrest
      exact ⟨c, rfl, hd.trans (congrArg some hfirst.symm)⟩

/-! ### The token of a word -/

theorem readDigits_append {cs : List Char} {position value n : Nat}
    (h : readDigits position value cs = .ok n) (ds : List Char) :
    readDigits position value (cs ++ ds) = readDigits (position + cs.length) n ds := by
  induction cs generalizing position value with
  | nil =>
    cases h
    rfl
  | cons c cs ih =>
    rw [List.cons_append, readDigits]
    rw [readDigits] at h
    cases hd : Numeral.digit? 16 c with
    | none =>
      rw [hd] at h
      cases h
    | some d =>
      rw [hd] at h
      dsimp only at h ⊢
      rw [ih h, List.length_cons, Nat.add_assoc, Nat.add_comm 1]

theorem readDigits_zeros (position count : Nat) :
    readDigits position 0 (List.replicate count (Numeral.upperDigit 0)) = .ok 0 := by
  induction count generalizing position with
  | zero => rfl
  | succ count ih =>
    rw [List.replicate_succ, readDigits, Numeral.digit?_upperDigit (by decide)]
    exact ih (position + 1)

theorem readDigits_toDigits (position n : Nat) :
    readDigits position 0 ((Nat.toDigits 16 n).map Char.toUpper) = .ok n := by
  induction n using Nat.strongRecOn with
  | ind n ih =>
    by_cases hn : n < 16
    · rw [Nat.toDigits_of_lt_base hn, List.map_singleton, readDigits,
        show Char.toUpper (Nat.digitChar n) = Numeral.upperDigit n from rfl,
        Numeral.digit?_upperDigit hn]
      simp [readDigits]
    · have hmod : n % 16 < 16 := Nat.mod_lt _ (by decide)
      rw [Nat.toDigits_of_base_le (by decide) (Nat.not_lt.1 hn), List.map_append,
        readDigits_append (ih (n / 16) (by omega)), List.map_singleton, readDigits,
        show Char.toUpper (Nat.digitChar (n % 16)) = Numeral.upperDigit (n % 16) from rfl,
        Numeral.digit?_upperDigit hmod]
      simp only [readDigits]
      congr 1
      omega

theorem readDigits_hex (position width n : Nat) :
    readDigits position 0 (Numeral.hex width n).toList = .ok n := by
  rw [Numeral.toList_hex, readDigits_append (readDigits_zeros _ _)]
  exact readDigits_toDigits _ _

theorem parse_word (w : Word) : parse (Numeral.word w) = .ok w := by
  rw [parse, if_pos (Numeral.length_word w), Numeral.word, readDigits_hex]
  exact congrArg Except.ok UInt16.ofNat_toNat

/-! ### The case of a digit -/

/-- Digits are their value, but for the case. -/
theorem map_toUpper_eq_of_readDigits {cs ds : List Char} {i j v w n : Nat}
    (hc : readDigits i v cs = .ok n) (hd : readDigits j w ds = .ok n)
    (hlength : cs.length = ds.length) : cs.map Char.toUpper = ds.map Char.toUpper := by
  induction cs generalizing ds i j v w with
  | nil => rw [List.length_eq_zero_iff.1 hlength.symm]
  | cons c cs ih =>
    cases ds with
    | nil => cases hlength
    | cons d ds =>
      have hlength : cs.length = ds.length := Nat.succ.inj hlength
      rw [readDigits] at hc hd
      split at hc
      · cases hc
      · rename_i x hx
        split at hd
        · cases hd
        · rename_i y hy
          have hvalue : v * 16 + x = w * 16 + y := by
            rw [← div_of_readDigits hc, ← div_of_readDigits hd, hlength]
          have hlt := Numeral.digit?_lt hx
          have hlt' := Numeral.digit?_lt hy
          obtain rfl : x = y := by omega
          rw [List.map_cons, List.map_cons, Numeral.toUpper_of_digit? hx,
            Numeral.toUpper_of_digit? hy, ih hc hd hlength]

theorem map_toUpper_of_parse {token : String} {w : Word} (h : parse token = .ok w) :
    token.map Char.toUpper = (Numeral.word w).map Char.toUpper := by
  rw [← String.toList_inj, String.toList_map, String.toList_map]
  have hword := readDigits_of_parse (parse_word w)
  refine map_toUpper_eq_of_readDigits (readDigits_of_parse h) hword ?_
  rw [String.length_toList, String.length_toList, length_of_parse h, Numeral.length_word]

/-! ### Texts that are no tokens -/

theorem exists_readDigits {cs : List Char} (h : ∀ c ∈ cs, Numeral.IsHexDigit c)
    (position value : Nat) : ∃ n, readDigits position value cs = .ok n := by
  induction cs generalizing position value with
  | nil => exact ⟨value, rfl⟩
  | cons c cs ih =>
    obtain ⟨d, hd⟩ := Option.isSome_iff_exists.1 (Numeral.isSome_digit?_iff.2 (h c (by simp)))
    rw [readDigits, hd]
    exact ih (fun x hx => h x (by simp [hx])) _ _

theorem readDigits_eq_error_iff {cs : List Char} {position value : Nat} {e : Error} :
    readDigits position value cs = .error e ↔
      ∃ before found after, cs = before ++ found :: after ∧
        (∀ c ∈ before, Numeral.IsHexDigit c) ∧ ¬ Numeral.IsHexDigit found ∧
        e = .invalidDigit (position + before.length) found := by
  induction cs generalizing position value with
  | nil => simp [readDigits]
  | cons c cs ih =>
    rw [readDigits]
    cases hd : Numeral.digit? 16 c with
    | none =>
      have hc : ¬ Numeral.IsHexDigit c := by simp [← Numeral.isSome_digit?_iff, hd]
      constructor
      · intro h
        cases h
        exact ⟨[], c, cs, rfl, by simp, hc, rfl⟩
      · rintro ⟨before, found, after, hcs, hbefore, -, rfl⟩
        cases before with
        | nil =>
          cases hcs
          rfl
        | cons x before =>
          cases hcs
          exact absurd (hbefore c (by simp)) hc
    | some d =>
      have hc : Numeral.IsHexDigit c := by simp [← Numeral.isSome_digit?_iff, hd]
      dsimp only
      rw [ih]
      constructor
      · rintro ⟨before, found, after, rfl, hbefore, hfound, rfl⟩
        refine ⟨c :: before, found, after, rfl, by simpa [hc] using hbefore, hfound, ?_⟩
        rw [List.length_cons, Nat.add_assoc, Nat.add_comm 1]
      · rintro ⟨before, found, after, hcs, hbefore, hfound, rfl⟩
        cases before with
        | nil =>
          cases hcs
          exact absurd hc hfound
        | cons x before =>
          cases hcs
          refine ⟨before, found, after, rfl, fun y hy => hbefore y (by simp [hy]), hfound, ?_⟩
          rw [List.length_cons, Nat.add_assoc, Nat.add_comm 1]

theorem parse_eq_error_iff {token : String} {e : Error} :
    parse token = .error e ↔
      if token.length = 4 then readDigits 0 0 token.toList = .error e
      else e = .wrongLength token.length := by
  by_cases hlength : token.length = 4
  · rw [parse, if_pos hlength, if_pos hlength]
    cases readDigits 0 0 token.toList with
    | ok n => simp [Except.map]
    | error e' => simp [Except.map]
  · rw [parse, if_neg hlength, if_neg hlength, Except.error.injEq, eq_comm]

theorem exists_parse {token : String} (hlength : token.length = 4)
    (h : ∀ c ∈ token.toList, Numeral.IsHexDigit c) : ∃ w, parse token = .ok w := by
  obtain ⟨n, hn⟩ := exists_readDigits h 0 0
  exact ⟨UInt16.ofNat n, by rw [parse, if_pos hlength, hn]; rfl⟩

/-- The texts that denote a word are its numeral in any mixture of cases. Of another text the length
is at fault, or the first character that is no digit. -/
theorem parse_accepts_four_hex_digits (token : String) :
    (∀ w, parse token = .ok w ↔
      token.length = 4 ∧ (∀ c ∈ token.toList, Numeral.IsHexDigit c) ∧
        token.map Char.toUpper = Numeral.word w) ∧
    (∀ w, parse (Numeral.word w) = .ok w) ∧
    ∀ e, parse token = .error e ↔
      if token.length = 4 then
        ∃ before found after, token.toList = before ++ found :: after ∧
          (∀ c ∈ before, Numeral.IsHexDigit c) ∧ ¬ Numeral.IsHexDigit found ∧
          e = .invalidDigit before.length found
      else e = .wrongLength token.length := by
  have hupper {w : Word} (h : parse token = .ok w) :
      token.map Char.toUpper = Numeral.word w :=
    (map_toUpper_of_parse h).trans (Numeral.map_toUpper_word w)
  refine ⟨fun w => ⟨fun h => ?_, ?_⟩, parse_word, fun e => ?_⟩
  · exact ⟨length_of_parse h,
      fun c hc => Numeral.isSome_digit?_iff.1 (isSome_digit?_of_parse h c hc), hupper h⟩
  · rintro ⟨hlength, hdigits, hword⟩
    obtain ⟨w', hw'⟩ := exists_parse hlength hdigits
    -- words with one numeral are the same
    have hnumeral : Numeral.word w' = Numeral.word w := (hupper hw').symm.trans hword
    rw [hw', ← parse_word w', hnumeral, parse_word]
  · rw [parse_eq_error_iff, readDigits_eq_error_iff]
    simp only [Nat.zero_add]

/-- A digit of full width is none. -/
example : parse "1２3G" = .error (.invalidDigit 1 '２') := rfl

end Token

theorem Numeral.hex_inj {width m n : Nat} (h : hex width m = hex width n) : m = n :=
  Except.ok.inj ((Token.readDigits_hex 0 width m).symm.trans (h ▸ Token.readDigits_hex 0 width n))

theorem Numeral.byte_inj {b c : Byte} (h : byte b = byte c) : b = c := UInt8.toNat_inj.1 (hex_inj h)

end ByteMachine
