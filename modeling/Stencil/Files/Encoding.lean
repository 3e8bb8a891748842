/-!
Texts as bytes, in UTF-8. Bytes that are no UTF-8 are read as replacement characters: each
longest start of a sequence that could have gone on gives one, and so does every other byte.
-/

namespace Stencil.Files

/-- The content of a file. -/
abbrev Bytes := List UInt8

namespace Encoding

/-- The bytes of a text. -/
def encode (text : String) : Bytes :=
  text.toList.flatMap String.utf8EncodeChar

/-- A sequence that has begun: how many bytes are to come, the number so far, and the bounds
of the next byte.
-/
structure Pending where
  left : Nat
  value : Nat
  lower : Nat
  upper : Nat
  deriving DecidableEq, Repr

/-- What a byte begins. -/
inductive Lead where
  | char (value : Nat)
  | sequence (pending : Pending)
  | bad
  deriving DecidableEq, Repr

/-- What a byte begins where no sequence has begun. The bounds of the second byte leave out
overlong forms, surrogates and numbers above the last character.
-/
def lead (byte : Nat) : Lead :=
  if byte < 0x80 then .char byte
  else if byte < 0xC2 then .bad
  else if byte < 0xE0 then .sequence ⟨1, byte - 0xC0, 0x80, 0xBF⟩
  else if byte < 0xF0 then
    .sequence ⟨2, byte - 0xE0, if byte = 0xE0 then 0xA0 else 0x80,
      if byte = 0xED then 0x9F else 0xBF⟩
  else if byte < 0xF5 then
    .sequence ⟨3, byte - 0xF0, if byte = 0xF0 then 0x90 else 0x80,
      if byte = 0xF4 then 0x8F else 0xBF⟩
  else .bad

/-- The character that stands for bytes that are none. -/
def replacement : Char := '\ufffd'

/-- The characters of bytes, after a sequence that may have begun. -/
def decodeFrom : Option Pending → Bytes → List Char
  | none, [] => []
  | some _, [] => [replacement]
  | pending?, byte :: bytes =>
    let afresh (found : List Char) : List Char :=
      match lead byte.toNat with
      | .char value => found ++ Char.ofNat value :: decodeFrom none bytes
      | .sequence pending => found ++ decodeFrom (some pending) bytes
      | .bad => found ++ replacement :: decodeFrom none bytes
    match pending? with
    | none => afresh []
    | some pending =>
      if pending.lower ≤ byte.toNat && byte.toNat ≤ pending.upper then
        let value := pending.value * 64 + byte.toNat % 64
        if pending.left = 1 then Char.ofNat value :: decodeFrom none bytes
        else decodeFrom (some ⟨pending.left - 1, value, 0x80, 0xBF⟩) bytes
      else afresh [replacement]

/-- The text of bytes. -/
def decode (bytes : Bytes) : String :=
  String.ofList (decodeFrom none bytes)

end Encoding

end Stencil.Files
