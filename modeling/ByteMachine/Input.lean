import ByteMachine.Word
import ByteMachine.Text.Lines

/-! Input as bytes. A reader takes one physical line at a time, through its newline byte, and
decodes it from UTF-8 on its own, so a line that is not valid UTF-8 is still consumed. What no
reader has taken stays available to the next one. -/

namespace ByteMachine

abbrev Bytes := List Byte

/-- Why bytes or their text could not be had. -/
inductive ReadError
  | notFound
  | notDirectory
  | isDirectory
  | nameTooLong
  | zeroInName
  | invalidEncoding
  /-- Any other reason, in the words of the system. -/
  | other (reason : String)
  deriving DecidableEq

def ReadError.message : ReadError → String
  | .notFound => "No such file or directory (os error 2)"
  | .notDirectory => "Not a directory (os error 20)"
  | .isDirectory => "Is a directory (os error 21)"
  | .nameTooLong => "File name too long (os error 36)"
  | .zeroInName => "file name contained an unexpected NUL byte"
  | .invalidEncoding => "stream did not contain valid UTF-8"
  | .other reason => reason

namespace Bytes

/-- Each piece runs through a newline byte; the last one may lack it. -/
def physicalLines (bytes : Bytes) : List Bytes := Text.cutAfter (· == 10) bytes

def encode (s : String) : Bytes := s.toByteArray.data.toList

/-- The text whose UTF-8 form the bytes are. -/
def decode (bytes : Bytes) : Except ReadError String :=
  match String.fromUTF8? ⟨bytes.toArray⟩ with
  | some text => .ok text
  | none => .error .invalidEncoding

theorem flatten_physicalLines (bytes : Bytes) : (physicalLines bytes).flatten = bytes :=
  Text.flatten_cutAfter _ bytes

theorem decode_eq_ok_iff {bytes : Bytes} {s : String} :
    decode bytes = .ok s ↔ encode s = bytes := by
  unfold decode encode String.fromUTF8?
  constructor
  · split <;> intro h
    · rename_i h'
      split at h'
      · cases h'; cases h; rfl
      · cases h'
    · cases h
  · rintro rfl
    simp only [Array.toArray_toList]
    rw [dif_pos s.isValidUTF8]
    rfl

end Bytes

end ByteMachine
