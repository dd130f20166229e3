import ByteMachine.Input

/-! Lines of bytes and lines of text. A newline is encoded as the byte that ends a physical line, and
no other character's encoding holds that byte. So the physical lines of an encoded text are the
encodings of its lines, and bytes decode as a whole exactly if each physical line does. The pieces
of a cut are characterized on their own, so that lines may be exchanged and cut again. -/

namespace ByteMachine

namespace Text

variable {α β : Type}

/-! ### Cutting -/

theorem cutAfter_of_ends {ends : α → Bool} {a : α} (h : ends a = true) (as : List α) :
    cutAfter ends (a :: as) = [a] :: cutAfter ends as := by
  rw [cutAfter, if_pos h]

/-- Elements that end no piece go to the front of the first piece of what follows. -/
theorem cutAfter_append_of_not_ends {ends : α → Bool} {front : List α} (hne : front ≠ [])
    (h : ∀ a ∈ front, ends a = false) (as : List α) :
    cutAfter ends (front ++ as) =
      (front ++ (cutAfter ends as).headD []) :: (cutAfter ends as).tail := by
  induction front with
  | nil => exact absurd rfl hne
  | cons a front ih =>
    have ha : ends a = false := h a List.mem_cons_self
    rw [List.cons_append, cutAfter, ha, if_neg Bool.false_ne_true]
    rcases front with _ | ⟨b, front⟩
    · rw [List.nil_append]
      cases cutAfter ends as <;> rfl
    · rw [ih (List.cons_ne_nil _ _) fun c hc => h c (List.mem_cons_of_mem _ hc)]
      rfl

/-- Replacing each element by a piece commutes with cutting, if only an element that ends a piece is
replaced by one that does. -/
theorem cutAfter_flatMap {ends : α → Bool} {ends' : β → Bool} {f : α → List β}
    (hend : ∀ a, ends a = true → ∃ b, f a = [b] ∧ ends' b = true)
    (hrest : ∀ a, ends a = false → f a ≠ [] ∧ ∀ b ∈ f a, ends' b = false) (as : List α) :
    cutAfter ends' (as.flatMap f) = (cutAfter ends as).map fun piece => piece.flatMap f := by
  induction as with
  | nil => rfl
  | cons a as ih =>
    rw [List.flatMap_cons, cutAfter]
    by_cases ha : ends a = true
    · obtain ⟨b, hb, hb'⟩ := hend a ha
      rw [if_pos ha, hb, List.singleton_append, cutAfter_of_ends hb', ih]
      simp [hb]
    · obtain ⟨hne, hno⟩ := hrest a (Bool.eq_false_iff.2 ha)
      rw [if_neg ha, cutAfter_append_of_not_ends hne hno, ih]
      cases cutAfter ends as <;> simp

/-! ### The pieces of a cut -/

/-- A piece that is ended: the element that ends it is its last. -/
def Closed (ends : α → Bool) (piece : List α) : Prop :=
  ∃ front last, piece = front ++ [last] ∧ (∀ a ∈ front, ends a = false) ∧ ends last = true

/-- The pieces of a cut: all are ended, except that the last may be open but not empty. -/
def IsCut (ends : α → Bool) : List (List α) → Prop
  | [] => True
  | piece :: pieces =>
    (Closed ends piece ∨ pieces = [] ∧ piece ≠ [] ∧ ∀ a ∈ piece, ends a = false) ∧
      IsCut ends pieces

theorem cutAfter_append_of_closed {ends : α → Bool} {piece : List α} (h : Closed ends piece)
    (as : List α) : cutAfter ends (piece ++ as) = piece :: cutAfter ends as := by
  obtain ⟨front, last, rfl, hfront, hlast⟩ := h
  rw [List.append_assoc, List.singleton_append]
  rcases front with _ | ⟨a, front⟩
  · rw [List.nil_append, cutAfter_of_ends hlast]
    rfl
  · rw [cutAfter_append_of_not_ends (List.cons_ne_nil _ _) hfront, cutAfter_of_ends hlast]
    rfl

theorem isCut_cutAfter (ends : α → Bool) (as : List α) : IsCut ends (cutAfter ends as) := by
  induction as with
  | nil => trivial
  | cons a as ih =>
    rw [cutAfter]
    split
    · rename_i ha
      exact ⟨.inl ⟨[], a, rfl, by simp, ha⟩, ih⟩
    · rename_i ha
      have ha : ends a = false := Bool.eq_false_iff.2 ha
      split
      · exact ⟨.inr ⟨rfl, List.cons_ne_nil _ _, by simpa using ha⟩, trivial⟩
      · rename_i piece pieces heq
        rw [heq] at ih
        obtain ⟨hpiece, hpieces⟩ := ih
        refine ⟨?_, hpieces⟩
        rcases hpiece with ⟨front, last, rfl, hfront, hlast⟩ | ⟨hnil, -, hopen⟩
        · exact .inl ⟨a :: front, last, rfl, by simpa [ha] using hfront, hlast⟩
        · exact .inr ⟨hnil, List.cons_ne_nil _ _, by simpa [ha] using hopen⟩

/-- Pieces of this form come back when their concatenation is cut. -/
theorem cutAfter_flatten {ends : α → Bool} {pieces : List (List α)} (h : IsCut ends pieces) :
    cutAfter ends pieces.flatten = pieces := by
  induction pieces with
  | nil => rfl
  | cons piece pieces ih =>
    obtain ⟨hclosed | ⟨rfl, hne, hopen⟩, hpieces⟩ := h
    · rw [List.flatten_cons, cutAfter_append_of_closed hclosed, ih hpieces]
    · rw [List.flatten_cons, cutAfter_append_of_not_ends hne hopen]
      simp [cutAfter]

/-- Some pieces at the end of a cut form a cut. -/
theorem IsCut.of_suffix {ends : α → Bool} {pieces rest : List (List α)} (h : IsCut ends pieces)
    (hrest : rest <:+ pieces) : IsCut ends rest := by
  obtain ⟨front, rfl⟩ := hrest
  induction front with
  | nil => exact h
  | cons piece front ih => exact ih h.2

/-- A piece of a cut is ended, or nothing in it ends a piece. -/
theorem IsCut.of_mem {ends : α → Bool} {pieces : List (List α)} (h : IsCut ends pieces)
    {piece : List α} (hpiece : piece ∈ pieces) :
    Closed ends piece ∨ ∀ a ∈ piece, ends a = false := by
  induction pieces with
  | nil => cases hpiece
  | cons first pieces ih =>
    rcases List.mem_cons.1 hpiece with rfl | hpiece
    · exact h.1.imp_right fun hopen => hopen.2.2
    · exact ih h.2 hpiece

/-- The lines of a text with their ends. -/
def physicalLines (s : String) : List String :=
  (cutAfter (· == '\n') s.toList).map String.ofList

theorem lines_eq (s : String) : lines s = (physicalLines s).map withoutEnd := by
  simp [lines, physicalLines]

/-! ### The end of a line -/

theorem dropLineEnd_append_newline (front : List Char) :
    dropLineEnd (front ++ ['\n']) <+: front := by
  have hreverse : (front ++ ['\n']).reverse = '\n' :: front.reverse := by simp
  rw [dropLineEnd, hreverse]
  split
  · rename_i rest heq
    exact ⟨['\r'], by simpa using congrArg List.reverse (List.cons.inj heq).2.symm⟩
  · rename_i rest _ heq
    have hfront : rest.reverse = front := by rw [← (List.cons.inj heq).2, List.reverse_reverse]
    exact ⟨[], (List.append_nil _).trans hfront⟩
  · rename_i hno
    exact absurd rfl (hno _)

theorem dropLineEnd_of_notMem {line : List Char} (h : '\n' ∉ line) : dropLineEnd line = line := by
  have hreverse : '\n' ∉ line.reverse := fun hmem => h (List.mem_reverse.1 hmem)
  unfold dropLineEnd
  split
  · rename_i rest heq
    exact absurd (heq ▸ List.mem_cons_self) hreverse
  · rename_i rest _ heq
    exact absurd (heq ▸ List.mem_cons_self) hreverse
  · rfl

theorem newline_notMem_of_mem_lines {s line : String} (h : line ∈ lines s) :
    '\n' ∉ line.toList := by
  obtain ⟨piece, hpiece, rfl⟩ := List.mem_map.1 h
  rw [withoutEnd, String.toList_ofList, String.toList_ofList]
  rcases (isCut_cutAfter (· == '\n') s.toList).of_mem hpiece with
    ⟨front, last, rfl, hfront, hlast⟩ | hopen
  · rw [beq_iff_eq.1 hlast]
    exact fun hmem => by simpa using hfront _ ((dropLineEnd_append_newline front).mem hmem)
  · have hpiece : '\n' ∉ piece := fun hmem => by simpa using hopen _ hmem
    rwa [dropLineEnd_of_notMem hpiece]

/-! ### Texts put together from lines -/

/-- The text is one line with its end. -/
def IsLine (s : String) : Prop := Closed (· == '\n') s.toList

theorem isLine_append_newline {s : String} (h : '\n' ∉ s.toList) : IsLine (s ++ "\n") := by
  refine ⟨s.toList, '\n', String.toList_append, fun c hc => ?_, rfl⟩
  rw [beq_eq_false_iff_ne]
  rintro rfl
  exact h hc

theorem physicalLines_join {lines : List String} (h : ∀ line ∈ lines, IsLine line) :
    physicalLines (String.join lines) = lines := by
  induction lines with
  | nil => rfl
  | cons line lines ih =>
    have hline : IsLine line := h line List.mem_cons_self
    have hlines := ih fun l hl => h l (List.mem_cons_of_mem _ hl)
    rw [physicalLines] at hlines ⊢
    rw [String.join_cons, String.toList_append, cutAfter_append_of_closed hline, List.map_cons,
      hlines, String.ofList_toList]

/-- Lines are found again in the text that they are put together to. -/
theorem join_inj {lines lines' : List String} (h : ∀ line ∈ lines, IsLine line)
    (h' : ∀ line ∈ lines', IsLine line) (heq : String.join lines = String.join lines') :
    lines = lines' := by
  rw [← physicalLines_join h, heq, physicalLines_join h']

theorem withoutEnd_append_newline {s : String} (h : '\r' ∉ s.toList) :
    withoutEnd (s ++ "\n") = s := by
  have hreverse : (s ++ "\n").toList.reverse = '\n' :: s.toList.reverse := by
    rw [String.toList_append]
    simp
  rw [withoutEnd, dropLineEnd, hreverse]
  split
  · rename_i rest heq
    have hmem : '\r' ∈ s.toList.reverse := by
      rw [(List.cons.inj heq).2]
      exact List.mem_cons_self
    exact absurd (List.mem_reverse.1 hmem) h
  · rename_i rest _ heq
    rw [← (List.cons.inj heq).2, List.reverse_reverse, String.ofList_toList]
  · rename_i hno
    exact absurd rfl (hno s.toList.reverse)

/-- Texts without a line end come back as lines when each is ended and they are put together. -/
theorem lines_join {texts : List String}
    (h : ∀ text ∈ texts, '\n' ∉ text.toList ∧ '\r' ∉ text.toList) :
    lines (String.join (texts.map (· ++ "\n"))) = texts := by
  have hlines : ∀ line ∈ texts.map (· ++ "\n"), IsLine line := by
    intro line hline
    obtain ⟨text, htext, rfl⟩ := List.mem_map.1 hline
    exact isLine_append_newline (h text htext).1
  rw [lines_eq, physicalLines_join hlines, List.map_map]
  refine (List.map_congr_left fun text htext => ?_).trans (List.map_id texts)
  exact withoutEnd_append_newline (h text htext).2

theorem join_flatMap {α : Type} (f : α → List String) (as : List α) :
    String.join (as.flatMap f) = String.join (as.map fun a => String.join (f a)) := by
  induction as with
  | nil => rfl
  | cons a as ih => rw [List.flatMap_cons, String.join_append, ih, List.map_cons, String.join_cons]

/-- The text without the lines that are to be dropped. -/
def withoutLines (drop : String → Bool) (s : String) : String :=
  String.join ((physicalLines s).filter fun line => !drop line)

theorem withoutLines_join {lines : List String} (h : ∀ line ∈ lines, IsLine line)
    (drop : String → Bool) :
    withoutLines drop (String.join lines) = String.join (lines.filter fun line => !drop line) := by
  rw [withoutLines, physicalLines_join h]

end Text

namespace Bytes

/-- The last of some physical lines come back when they are put together. -/
theorem physicalLines_flatten {bytes : Bytes} {rest : List Bytes}
    (h : rest <:+ bytes.physicalLines) : physicalLines rest.flatten = rest :=
  Text.cutAfter_flatten ((Text.isCut_cutAfter _ bytes).of_suffix h)

/-! ### UTF-8 -/

theorem encode_eq (s : String) : encode s = s.toList.flatMap String.utf8EncodeChar := by
  rw [encode, ← String.utf8Encode_toList, List.utf8Encode, List.data_toByteArray, List.toList_toArray]

theorem encode_append (s t : String) : encode (s ++ t) = encode s ++ encode t := by
  simp [encode_eq]

theorem decode_encode (s : String) : decode (encode s) = .ok s := decode_eq_ok_iff.2 rfl

/-- There is one reason not to decode. -/
theorem decode_eq_error {bytes : Bytes} {e : ReadError} (h : decode bytes = .error e) :
    e = .invalidEncoding := by
  unfold decode at h
  split at h
  · cases h
  · cases h
    rfl

theorem utf8EncodeChar_newline : String.utf8EncodeChar '\n' = [10] := by decide

theorem newline_ne_ofNat {n : Nat} (hlow : 128 ≤ n) (hhigh : n < 256) :
    (10 : Byte) ≠ UInt8.ofNat n := by
  intro h
  have hn := congrArg UInt8.toNat h
  rw [UInt8.toNat_ofNat_of_lt' hhigh] at hn
  have : n = 10 := hn.symm
  omega

/-- A character of one byte is that byte, and each byte of a longer encoding is at least 128. -/
theorem eq_of_newline_mem {c : Char} (h : 10 ∈ String.utf8EncodeChar c) : c = '\n' := by
  unfold String.utf8EncodeChar at h
  simp only [] at h
  split at h
  · rename_i hle
    have hc := congrArg UInt8.toNat (List.mem_singleton.1 h)
    rw [UInt8.toNat_ofNat_of_lt' (by simp only [UInt8.size]; omega)] at hc
    exact Char.toNat_inj.1 hc.symm
  · split at h
    · simp only [List.mem_cons, List.not_mem_nil, or_false] at h
      rcases h with h | h <;> exact absurd h (newline_ne_ofNat (by omega) (by omega))
    · split at h <;> simp only [List.mem_cons, List.not_mem_nil, or_false] at h
      · rcases h with h | h | h <;> exact absurd h (newline_ne_ofNat (by omega) (by omega))
      · rcases h with h | h | h | h <;> exact absurd h (newline_ne_ofNat (by omega) (by omega))

theorem physicalLines_encode (s : String) :
    physicalLines (encode s) = (Text.physicalLines s).map encode := by
  have hcut : Text.cutAfter (· == (10 : Byte)) (s.toList.flatMap String.utf8EncodeChar) =
      (Text.cutAfter (· == '\n') s.toList).map fun line =>
        line.flatMap String.utf8EncodeChar := by
    apply Text.cutAfter_flatMap
    · intro c hc
      rw [beq_iff_eq.1 hc]
      exact ⟨10, utf8EncodeChar_newline, rfl⟩
    · intro c hc
      refine ⟨String.utf8EncodeChar_ne_nil, fun b hb => ?_⟩
      rw [beq_eq_false_iff_ne] at hc ⊢
      rintro rfl
      exact hc (eq_of_newline_mem hb)
  rw [physicalLines, encode_eq, hcut, Text.physicalLines, List.map_map]
  apply List.map_congr_left
  intro line _
  simp [encode_eq]

theorem exists_encode_of_mem {bytes : Bytes} {text : String} (h : decode bytes = .ok text)
    {line : Bytes} (hline : line ∈ bytes.physicalLines) : ∃ s, encode s = line := by
  rw [← decode_eq_ok_iff.1 h, physicalLines_encode, List.mem_map] at hline
  obtain ⟨s, -, hs⟩ := hline
  exact ⟨s, hs⟩

/-- Bytes decode as a whole if each physical line does. -/
theorem exists_encode_flatten {lines : List Bytes} (h : ∀ line ∈ lines, ∃ s, encode s = line) :
    ∃ s, encode s = lines.flatten := by
  induction lines with
  | nil => exact ⟨"", by simp [encode_eq]⟩
  | cons line lines ih =>
    obtain ⟨s, hs⟩ := h line List.mem_cons_self
    obtain ⟨t, ht⟩ := ih fun l hl => h l (List.mem_cons_of_mem _ hl)
    exact ⟨s ++ t, by rw [encode_append, hs, ht, List.flatten_cons]⟩

end Bytes

end ByteMachine
