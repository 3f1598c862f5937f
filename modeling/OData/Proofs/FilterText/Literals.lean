import OData.Literal
import OData.Proofs.FilterText.Tokens

/-! # Literals as words

A literal that is no list is one word of filter text, and no operator
(`lex_render`).  Strings are quoted, and everything else is written without white
space, parentheses and commas.  A date has colons in it, but starts like no name.
-/
namespace OData
namespace FilterText

open Text

/-! ## Numbers and dates -/

/-- A character that numbers and dates are made of. -/
def isDateChar (c : Char) : Bool := c.isDigit || ['-', '+', '.', ':', 'T', 'Z'].contains c

theorem isDateChar_of_mem_toDigits {n : Nat} {c : Char} (h : c ∈ Nat.toDigits 10 n) :
    c.isDigit = true :=
  Nat.isDigit_of_mem_toDigits (by decide) (Nat.le_refl 10) h

/-- Operators are words of small letters. -/
theorem not_mem_operators {w : List Char} {c : Char} (hc : c ∈ w) (h : c.isLower = false) :
    w ∉ operators := by
  intro hw
  rw [(by decide : ∀ w ∈ operators, ∀ c ∈ w, c.isLower = true) w hw c hc] at h
  cases h

theorem not_isLower_of_isDigit {c : Char} (h : c.isDigit = true) : c.isLower = false := by
  have hn : 48 ≤ c.toNat ∧ c.toNat ≤ 57 := Char.isDigit_iff_toNat.mp h
  have hdef : c.isLower = (decide (97 ≤ c.val) && decide (c.val ≤ 122)) := rfl
  simp only [hdef, UInt32.le_iff_toNat_le, Bool.and_eq_false_iff, decide_eq_false_iff_not]
  left
  change ¬ 97 ≤ c.toNat
  omega

theorem isWordChar_of_isDateChar {c : Char} (h : isDateChar c = true) : isWordChar c = true := by
  simp only [isDateChar, Bool.or_eq_true, List.contains_iff_mem] at h
  rcases h with h | h
  · exact (isWordChar_of_isNameChar (by simp [isNameChar, Char.isAlphanum, h])).1
  · exact (by decide : ∀ c ∈ ['-', '+', '.', ':', 'T', 'Z'], isWordChar c = true) c h

/-- A number or a date. -/
theorem isWord_date {w : List Char} (nonempty : w ≠ []) (chars : ∀ c ∈ w, isDateChar c = true)
    (first : ∀ c ∈ w.head?, c.isDigit = true ∨ c ∈ ['-', '+', '.']) :
    IsWord w ∧ w ∉ operators := by
  obtain ⟨c, w, rfl⟩ := List.exists_cons_of_ne_nil nonempty
  have hchars : ∀ x ∈ c :: w, isWordChar x = true := fun x hx =>
    isWordChar_of_isDateChar (chars x hx)
  rcases first c rfl with h | h
  · exact ⟨isWord_of_first hchars (.inl h),
      not_mem_operators (List.mem_cons_self ..) (not_isLower_of_isDigit h)⟩
  · exact ⟨isWord_of_first hchars (.inr ((by decide : ∀ c ∈ ['-', '+', '.'],
        isNameChar c = false) c h)),
      not_mem_operators (List.mem_cons_self ..) ((by decide : ∀ c ∈ ['-', '+', '.'],
        c.isLower = false) c h)⟩

/-- A text of digits, points and signs. -/
theorem isWord_number {w : List Char} (nonempty : w ≠ [])
    (chars : ∀ c ∈ w, c.isDigit = true ∨ c ∈ ['-', '+', '.']) : IsWord w ∧ w ∉ operators := by
  refine isWord_date nonempty (fun c hc => ?_) fun c hc => chars c (List.mem_of_head? hc)
  rcases chars c hc with h | h
  · simp [isDateChar, h]
  · exact (by decide : ∀ c ∈ ['-', '+', '.'], isDateChar c = true) c h

theorem writeInt_chars (n : Int) :
    ∀ c ∈ Json.writeInt n, c.isDigit = true ∨ c ∈ ['-', '+', '.'] := by
  intro c hc
  rw [Json.writeInt, List.mem_append] at hc
  rcases hc with hc | hc
  · split at hc
    · exact .inr (by simp [List.mem_singleton.mp hc])
    · cases hc
  · exact .inl (isDateChar_of_mem_toDigits hc)

theorem isWord_writeInt (n : Int) : IsWord (Json.writeInt n) ∧ Json.writeInt n ∉ operators :=
  isWord_number (by simp [Json.writeInt, Nat.toDigits_ne_nil]) (writeInt_chars n)

theorem writePositional_chars (d : Decimal) :
    Literal.numberLayout.writePositional d ≠ [] ∧
      ∀ c ∈ Literal.numberLayout.writePositional d, c.isDigit = true ∨ c ∈ ['-', '+', '.'] := by
  have hdigits : ∀ c ∈ d.digits, c.isDigit = true := fun c hc => isDateChar_of_mem_toDigits hc
  have hne : d.digits ≠ [] := Nat.toDigits_ne_nil
  have hzeros : ∀ n, ∀ c ∈ List.replicate n '0', c.isDigit = true := fun n c hc => by
    rw [List.eq_of_mem_replicate hc]
    rfl
  rw [Double.Layout.writePositional]
  dsimp only
  -- The point stands behind the digits, in front of them or among them.
  split
  · refine ⟨by simp [hne], fun c hc => .inl ?_⟩
    rw [show Literal.numberLayout.keepsPoint = false from rfl] at hc
    simp only [Bool.false_eq_true, if_false, List.append_nil, List.mem_append] at hc
    rcases hc with hc | hc
    · exact hdigits c hc
    · exact hzeros _ c hc
  · split
    · refine ⟨by simp, fun c hc => ?_⟩
      simp only [List.mem_append, List.mem_cons, List.not_mem_nil, or_false] at hc
      rcases hc with ((rfl | rfl) | hc) | hc
      · exact .inl rfl
      · exact .inr (by simp)
      · exact .inl (hzeros _ c hc)
      · exact .inl (hdigits c hc)
    · refine ⟨by simp, fun c hc => ?_⟩
      simp only [List.mem_append, List.mem_singleton] at hc
      rcases hc with (hc | rfl) | hc
      · exact .inl (hdigits c (List.mem_of_mem_take hc))
      · exact .inr (by simp)
      · exact .inl (hdigits c (List.mem_of_mem_drop hc))

theorem writeFinite_chars (negative : Bool) (m : Nat) (e : Int) :
    (Literal.numberLayout.write (.finite negative m e)).toList ≠ [] ∧
      ∀ c ∈ (Literal.numberLayout.write (.finite negative m e)).toList,
        c.isDigit = true ∨ c ∈ ['-', '+', '.'] := by
  obtain ⟨hne, hchars⟩ := writePositional_chars (Double.shortest Literal.numberLayout.tie m e)
  have hpos : ∀ k, Literal.numberLayout.positional k = true := fun _ => rfl
  rw [Double.Layout.write]
  simp only [hpos, if_true, String.toList_append, String.toList_ofList]
  refine ⟨by simp [hne], fun c hc => ?_⟩
  rw [List.mem_append] at hc
  rcases hc with hc | hc
  · cases negative with
    | false => simp at hc
    | true => exact .inr (by simpa using Or.inl hc)
  · exact hchars c hc

theorem isWord_double (d : Double) : IsWord (Literal.numberLayout.write d).toList ∧
    (Literal.numberLayout.write d).toList ∉ operators := by
  cases d with
  | nan =>
    refine ⟨isWord_of_not_mem_colon (by decide) (by decide) (by decide), ?_⟩
    exact not_mem_operators (c := 'N') (by decide) rfl
  | infinite negative =>
    cases negative with
    | false =>
      refine ⟨isWord_of_not_mem_colon (by decide) (by decide) (by decide), ?_⟩
      exact not_mem_operators (c := 'I') (by decide) rfl
    | true =>
      refine ⟨isWord_of_not_mem_colon (by decide) (by decide) (by decide), ?_⟩
      exact not_mem_operators (c := 'I') (by decide) rfl
  | finite negative m e =>
    obtain ⟨hne, hchars⟩ := writeFinite_chars negative m e
    exact isWord_number hne hchars

theorem padded_chars (width n : Nat) :
    Instant.padded width n ≠ [] ∧ ∀ c ∈ Instant.padded width n, c.isDigit = true := by
  rw [Instant.padded]
  refine ⟨by simp [Nat.toDigits_ne_nil], fun c hc => ?_⟩
  rcases List.mem_append.mp hc with hc | hc
  · rw [List.eq_of_mem_replicate hc]
    rfl
  · exact isDateChar_of_mem_toDigits hc

theorem writeYear_chars (year : Int) :
    Instant.writeYear year ≠ [] ∧
      ∀ c ∈ Instant.writeYear year, c.isDigit = true ∨ c ∈ ['-', '+', '.'] := by
  obtain ⟨hne, hdigits⟩ := padded_chars 4 year.natAbs
  rw [Instant.writeYear]
  split
  · exact ⟨hne, fun c hc => .inl (hdigits c hc)⟩
  · refine ⟨by simp, fun c hc => ?_⟩
    rcases List.mem_cons.mp hc with rfl | hc
    · right
      split <;> simp
    · exact .inl (hdigits c hc)

theorem writeInstant_chars (t : Instant) : ∀ c ∈ t.toText.toList, isDateChar c = true := by
  obtain ⟨-, hyear⟩ := writeYear_chars (Date.ofDays (t.seconds.fdiv 86400)).year
  have hdigit : ∀ c, c.isDigit = true → isDateChar c = true := fun c h => by simp [isDateChar, h]
  have hpadded : ∀ width n, ∀ c ∈ Instant.padded width n, isDateChar c = true :=
    fun width n c hc => hdigit c ((padded_chars width n).2 c hc)
  have hdate : ∀ c ∈ Instant.writeYear (Date.ofDays (t.seconds.fdiv 86400)).year,
      isDateChar c = true := by
    intro c hc
    rcases hyear c hc with h | h
    · exact hdigit c h
    · exact (by decide : ∀ c ∈ ['-', '+', '.'], isDateChar c = true) c h
  rw [Instant.toText, String.toList_ofList, Instant.writeSeconds]
  intro c hc
  simp only [List.mem_append, List.mem_cons, List.not_mem_nil, or_false] at hc
  grind [isDateChar]

theorem isWord_instant (t : Instant) : IsWord t.toText.toList ∧ t.toText.toList ∉ operators := by
  obtain ⟨hne, hyear⟩ := writeYear_chars (Date.ofDays (t.seconds.fdiv 86400)).year
  have hchars := writeInstant_chars t
  rw [Instant.toText, String.toList_ofList, Instant.writeSeconds] at hchars ⊢
  refine isWord_date (by simp) hchars fun c hc => ?_
  obtain ⟨x, year, hx⟩ := List.exists_cons_of_ne_nil hne
  simp only [hx, List.cons_append, List.head?_cons, Option.mem_some] at hc
  rw [← hc]
  exact hyear x (by simp [hx])

/-! ## Identifiers -/

theorem hexDigits_chars (count n : Nat) :
    ∀ c ∈ Guid.hexDigits count n, isNameChar c = true := by
  induction count generalizing n with
  | zero => simp [Guid.hexDigits]
  | succ count ih =>
    intro c hc
    rw [Guid.hexDigits, List.mem_append, List.mem_singleton] at hc
    rcases hc with hc | rfl
    · exact ih _ c hc
    · have hn : n % 16 < 16 := Nat.mod_lt _ (by decide)
      exact (by decide : ∀ k < 16, isNameChar (hexDigit k) = true) _ hn

theorem hyphenate_chars (groups : List Nat) (digits : List Char) :
    ∀ c ∈ Guid.hyphenate groups digits, c = '-' ∨ c ∈ digits := by
  fun_induction Guid.hyphenate groups digits with
  | case1 => exact fun c hc => .inr hc
  | case2 => exact fun c hc => .inr (List.mem_of_mem_take hc)
  | case3 digits n ns _ ih =>
    intro c hc
    rw [List.mem_append, List.mem_cons] at hc
    rcases hc with hc | hc | hc
    · exact .inr (List.mem_of_mem_take hc)
    · exact .inl hc
    · exact (ih c hc).imp id List.mem_of_mem_drop

theorem isWord_guid (g : Guid) : IsWord g.toText.toList ∧ g.toText.toList ∉ operators := by
  rw [Guid.toText, String.toList_ofList]
  have hhyphen : '-' ∈ Guid.hyphenate Guid.groups (Guid.hexDigits 32 g.bits.toNat) := by
    simp [Guid.groups, Guid.hyphenate]
  have hchars : ∀ c ∈ Guid.hyphenate Guid.groups (Guid.hexDigits 32 g.bits.toNat),
      isWordChar c = true ∧ c ≠ ':' := by
    intro c hc
    rcases hyphenate_chars _ _ c hc with rfl | hc
    · decide
    · exact isWordChar_of_isNameChar (hexDigits_chars _ _ c hc)
  exact ⟨isWord_of_not_mem_colon (List.ne_nil_of_mem hhyphen) (fun c hc => (hchars c hc).1)
      fun hm => (hchars _ hm).2 rfl,
    not_mem_operators hhyphen rfl⟩

/-! ## Literals -/

/-- A literal that is no list. -/
def IsScalar : Literal → Prop
  | .list _ => False
  | _ => True

/-- A literal that is no list is one word, and no operator. -/
theorem lex_render {v : Literal} (h : IsScalar v) :
    lex v.render.toList = some [.word v.render.toList] ∧ v.render.toList ∉ operators := by
  have hquoted : ∀ s, lex (quoted s).toList = some [.word (quoted s).toList] ∧
      (quoted s).toList ∉ operators := fun s =>
    ⟨lex_quoted s, not_mem_operators (c := '\'') (by simp [toList_quoted]) rfl⟩
  have hword : ∀ {w : List Char}, IsWord w ∧ w ∉ operators →
      lex w = some [.word w] ∧ w ∉ operators := fun ⟨hw, ho⟩ => ⟨hw.lex, ho⟩
  cases v with
  | null => decide
  | text s => exact hquoted s
  | bool b => cases b <;> decide
  | int n =>
    rw [Literal.render, Literal.writeInt, String.toList_ofList]
    exact hword (isWord_writeInt n)
  | double d => exact hword (isWord_double d)
  | instant t => exact hword (isWord_instant t)
  | guid g => exact hword (isWord_guid g)
  | enumMember name => exact hquoted name
  | list _ => exact h.elim

/-- A literal that is neither quoted nor a list. -/
def IsBare : Literal → Prop
  | .text _ | .enumMember _ | .list _ => False
  | _ => True

/-- A character of a bare literal. -/
def isBareChar (c : Char) : Bool := isNameChar c || isDateChar c

theorem isBareChar_of_mem_render {v : Literal} (h : IsBare v) :
    ∀ c ∈ v.render.toList, isBareChar c = true := by
  have hdate : ∀ {c}, isDateChar c = true → isBareChar c = true := fun h => by simp [isBareChar, h]
  have hnumber : ∀ {c : Char}, c.isDigit = true ∨ c ∈ ['-', '+', '.'] → isBareChar c = true := by
    rintro c (h | h)
    · exact hdate (by simp [isDateChar, h])
    · exact (by decide : ∀ c ∈ ['-', '+', '.'], isBareChar c = true) c h
  intro c hc
  cases v with
  | null => exact (by decide : ∀ c ∈ "null".toList, isBareChar c = true) c hc
  | bool b =>
    cases b with
    | false => exact (by decide : ∀ c ∈ "false".toList, isBareChar c = true) c hc
    | true => exact (by decide : ∀ c ∈ "true".toList, isBareChar c = true) c hc
  | int n =>
    rw [Literal.render, Literal.writeInt, String.toList_ofList] at hc
    exact hnumber (writeInt_chars n c hc)
  | double d =>
    rw [Literal.render] at hc
    cases d with
    | nan => exact (by decide : ∀ c ∈ "NaN".toList, isBareChar c = true) c hc
    | infinite negative =>
      cases negative with
      | false => exact (by decide : ∀ c ∈ "INF".toList, isBareChar c = true) c hc
      | true => exact (by decide : ∀ c ∈ "-INF".toList, isBareChar c = true) c hc
    | finite negative m e => exact hnumber ((writeFinite_chars negative m e).2 c hc)
  | instant t =>
    rw [Literal.render] at hc
    exact hdate (writeInstant_chars t c hc)
  | guid g =>
    rw [Literal.render, Guid.toText, String.toList_ofList] at hc
    rcases hyphenate_chars _ _ c hc with rfl | hc
    · decide
    · simp [isBareChar, hexDigits_chars _ _ c hc]
  | text | enumMember | list => exact h.elim

end FilterText
end OData
