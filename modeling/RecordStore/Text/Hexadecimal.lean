/-!
# Hexadecimal numerals

Lower-case digits behind `0x`, filled with zeros to a least number of digits.
-/

namespace RecordStore.Hexadecimal

def text (digits n : Nat) : String :=
  let numeral := Nat.toDigits 16 n
  "0x" ++ String.ofList (List.replicate (digits - numeral.length) '0' ++ numeral)

end RecordStore.Hexadecimal
