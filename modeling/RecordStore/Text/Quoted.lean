import RecordStore.Text.DefaultIgnorable
import RecordStore.Text.ExtendingMark
import RecordStore.Text.Unprintable

/-!
# Quoted text

A path is shown between double quotes.  A double quote and a backslash stand behind a backslash, four controls have a
letter or digit of their own, and a character that cannot be seen by itself is given by its code point.
`escape_ascii` says that the rest of ASCII is shown as it is.
-/

namespace RecordStore.Quoted

/-- Whether nothing is drawn for `c`, or only a part of the character before it. -/
def isHidden (c : Char) : Bool :=
  ExtendingMark.ranges.covers c || DefaultIgnorable.ranges.covers c || Unprintable.ranges.covers c

def codePoint (c : Char) : List Char := ['\\', 'u', '\x7b'] ++ Nat.toDigits 16 c.toNat ++ ['\x7d']

def escape (c : Char) : List Char :=
  match c with
  | '"' => ['\\', '"']
  | '\\' => ['\\', '\\']
  | '\n' => ['\\', 'n']
  | '\r' => ['\\', 'r']
  | '\t' => ['\\', 't']
  | '\x00' => ['\\', '0']
  | c => if isHidden c then codePoint c else [c]

theorem isHidden_ascii {c : Char} (low : 0x20 ≤ c.toNat) (high : c.toNat < 0x7f) : isHidden c = false := by
  rw [isHidden, ExtendingMark.covers_ascii (by omega), DefaultIgnorable.covers_ascii (by omega),
    Unprintable.covers_ascii low high]
  rfl

theorem escape_ascii {c : Char} (low : 0x20 ≤ c.toNat) (high : c.toNat < 0x7f) (quote : c ≠ '"')
    (backslash : c ≠ '\\') : escape c = [c] := by
  unfold escape
  split
  case h_1 => exact absurd rfl quote
  case h_2 => exact absurd rfl backslash
  case h_7 => rw [isHidden_ascii low high]; rfl
  all_goals exact absurd low (by decide)

def text (s : String) : String := String.ofList ('"' :: s.toList.flatMap escape ++ ['"'])

end RecordStore.Quoted
