import ByteMachine.Text.Combining
import ByteMachine.Text.Numeral
import ByteMachine.Text.Printable

/-! Quoted characters and texts in messages. Between the quotes a backslash starts an escape: a
letter for the common controls, the quote itself, a backslash, or a code point in braces for a
character that is not printable or that combines with the one before it. -/

namespace ByteMachine.Text

/-- What stands for `c` between two marks `quote`. The other kind of quote needs no escape. -/
def escape (quote c : Char) : String :=
  if c = '\x00' then "\\0"
  else if c = '\t' then "\\t"
  else if c = '\r' then "\\r"
  else if c = '\n' then "\\n"
  else if c = '\\' ∨ c = quote then String.ofList ['\\', c]
  else if isCombining c ∨ ¬ isPrintable c then "\\u\x7b" ++ Numeral.lowerHex c.toNat ++ "\x7d"
  else String.singleton c

/-- The character between single quotes. -/
def quoteChar (c : Char) : String := "'" ++ escape '\'' c ++ "'"

/-- The text between double quotes. -/
def quote (s : String) : String :=
  "\"" ++ String.join (s.toList.map (escape '"')) ++ "\""

end ByteMachine.Text
