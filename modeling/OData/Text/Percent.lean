import OData.Text.Digits

/-! # Percent-encoding

The octets of a text's UTF-8 form are written as `%` and two hexadecimal digits
in upper case, unless they stand for an unreserved character: a letter or digit
of ASCII, `-`, `_`, `.` or `~`.
-/
namespace OData
namespace Text

/-- Characters that percent-encoding leaves alone. -/
def isUnreserved (c : Char) : Bool :=
  c.isAlphanum || c == '-' || c == '_' || c == '.' || c == '~'

/-- An octet as `%` and two hexadecimal digits. -/
def percentOctet (b : UInt8) : List Char :=
  ['%', upperHexDigit (b.toNat / 16), upperHexDigit (b.toNat % 16)]

/-- The octets of a character in percent-encoding, unless `keep` lets it stand. -/
def percentUnless (keep : Char → Bool) (c : Char) : List Char :=
  if keep c then [c] else (String.utf8EncodeChar c).flatMap percentOctet

/-- One character in percent-encoding. -/
def percentChar (c : Char) : List Char := percentUnless isUnreserved c

/-- A text in percent-encoding. -/
def percentEncode (s : List Char) : List Char := s.flatMap percentChar

@[simp] theorem percentEncode_nil : percentEncode [] = [] := rfl

@[simp] theorem percentEncode_cons (c : Char) (s : List Char) :
    percentEncode (c :: s) = percentChar c ++ percentEncode s := rfl

@[simp] theorem percentEncode_append (s t : List Char) :
    percentEncode (s ++ t) = percentEncode s ++ percentEncode t :=
  List.flatMap_append

end Text

/-- The text in percent-encoding. -/
def percentEncoded (s : String) : String := String.ofList (Text.percentEncode s.toList)

end OData
