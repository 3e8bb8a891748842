/-!
Bytes as texts of 64 characters, six bits a character. Reading passes over characters that have
no value, and over bits that are left at the end.
-/

namespace Stencil.Text.Base64

/-- The characters of the values from zero on. -/
def alphabet : List Char :=
  "ABCDEFGHIJKLMNOPQRSTUVWXYZabcdefghijklmnopqrstuvwxyz0123456789+/".toList

/-- The value of a character. Two more characters stand for the last two values. -/
def valueOf? (c : Char) : Option Nat :=
  if c == '-' then some 62 else if c == '_' then some 63 else alphabet.idxOf? c

/-- The bytes of values, with the bits that are left over before them. -/
def bytesOf (bits count : Nat) : List Nat → List UInt8
  | [] => []
  | value :: values =>
    let bits := 64 * bits + value
    let count := count + 6
    if count < 8 then bytesOf bits count values
    else
      let left := count - 8
      UInt8.ofNat (bits / Nat.pow 2 left) :: bytesOf (bits % Nat.pow 2 left) left values

/-- The bytes that a text spells. -/
def decode (text : List Char) : List UInt8 :=
  bytesOf 0 0 (text.filterMap valueOf?)

/-- The text of bytes, padded to a multiple of four characters. -/
def encode : List UInt8 → List Char
  | [] => []
  | [a] =>
    let n := a.toNat * 16
    [n / 64, n % 64].map charOf ++ ['=', '=']
  | [a, b] =>
    let n := (a.toNat * 256 + b.toNat) * 4
    [n / 4096, n / 64 % 64, n % 64].map charOf ++ ['=']
  | a :: b :: c :: rest =>
    let n := (a.toNat * 256 + b.toNat) * 256 + c.toNat
    [n / 262144, n / 4096 % 64, n / 64 % 64, n % 64].map charOf ++ encode rest
where
  /-- The character of a value. -/
  charOf (value : Nat) : Char :=
    alphabet.getD value 'A'

end Stencil.Text.Base64
