import OData.Text.Percent

/-! # Reading percent-encoding

`percentDecoded?` reads a text in percent-encoding, first the octets and then the
characters of their UTF-8 form.  It gives back what was encoded, whatever it is
(`percentDecoded?_percentEncoded`), and an encoded text has no characters but
unreserved ones and percent signs (`mem_percentEncode`), so no separator of a URL.
-/
namespace OData
namespace Text

/-- The octets that a text in percent-encoding stands for.  A percent sign has to
stand before two hexadecimal digits, and other characters stand for themselves. -/
def percentOctets? : List Char → Option (List UInt8)
  | [] => some []
  | '%' :: a :: b :: s => do
    let high ← hexValue? a
    let low ← hexValue? b
    let octets ← percentOctets? s
    return UInt8.ofNat (high * 16 + low) :: octets
  | c :: s => if c = '%' then none else (percentOctets? s).map (String.utf8EncodeChar c ++ ·)

variable {c : Char} {s rest : List Char} {octets : List UInt8}

theorem hexValue?_upperHexDigit : ∀ n < 16, hexValue? (upperHexDigit n) = some n := by decide

theorem percentOctets?_percentOctet (b : UInt8) (h : percentOctets? rest = some octets) :
    percentOctets? (percentOctet b ++ rest) = some (b :: octets) := by
  have hb : b.toNat < 256 := b.toNat_lt
  have hbyte : UInt8.ofNat (b.toNat / 16 * 16 + b.toNat % 16) = b := by
    rw [Nat.div_add_mod']
    exact UInt8.ofNat_toNat
  have hhigh := hexValue?_upperHexDigit (b.toNat / 16) (by omega)
  have hlow := hexValue?_upperHexDigit (b.toNat % 16) (Nat.mod_lt _ (by decide))
  rw [percentOctet, List.cons_append, List.cons_append, List.cons_append, List.nil_append,
    percentOctets?, hhigh, hlow, h]
  exact congrArg (fun x => some (x :: octets)) hbyte

theorem percentOctets?_percentChar (c : Char) (h : percentOctets? rest = some octets) :
    percentOctets? (percentChar c ++ rest) = some (String.utf8EncodeChar c ++ octets) := by
  rw [percentChar, percentUnless]
  split
  · next hc =>
    have hne : c ≠ '%' := by
      rintro rfl
      cases hc
    simp [percentOctets?, hne, h]
  · induction String.utf8EncodeChar c with
    | nil => exact h
    | cons b bs ih =>
      rw [List.flatMap_cons, List.append_assoc]
      exact percentOctets?_percentOctet b ih

theorem percentOctets?_percentEncode (s : List Char) :
    percentOctets? (percentEncode s) = some (s.flatMap String.utf8EncodeChar) := by
  induction s with
  | nil => rfl
  | cons c s ih => exact percentOctets?_percentChar c ih

/-- A character of an encoded text. -/
theorem mem_percentEncode (h : c ∈ percentEncode s) : isUnreserved c = true ∨ c = '%' := by
  have hdigit : ∀ n < 16, isUnreserved (upperHexDigit n) = true := by decide
  obtain ⟨x, -, hx⟩ := List.mem_flatMap.mp h
  rw [percentChar, percentUnless] at hx
  split at hx
  · next hkeep =>
    rw [List.mem_singleton.mp hx]
    exact .inl hkeep
  · obtain ⟨b, -, hb⟩ := List.mem_flatMap.mp hx
    have hlt : b.toNat < 256 := b.toNat_lt
    simp only [percentOctet, List.mem_cons, List.not_mem_nil, or_false] at hb
    rcases hb with rfl | rfl | rfl
    · exact .inr rfl
    · exact .inl (hdigit _ (by omega))
    · exact .inl (hdigit _ (by omega))

end Text

/-- The text that a text in percent-encoding stands for, if it stands for one. -/
def percentDecoded? (s : String) : Option String :=
  (Text.percentOctets? s.toList).bind fun octets => String.fromUTF8? octets.toByteArray

theorem percentDecoded?_percentEncoded (s : String) :
    percentDecoded? (percentEncoded s) = some s := by
  have hutf8 : (s.toList.flatMap String.utf8EncodeChar).toByteArray = s.toByteArray :=
    String.utf8Encode_toList
  rw [percentDecoded?, percentEncoded, String.toList_ofList, Text.percentOctets?_percentEncode,
    Option.bind_some, hutf8, String.fromUTF8?, dif_pos s.isValidUTF8]
  rfl

end OData
