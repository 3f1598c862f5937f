import OData.Text.Blank
import OData.Text.Split

/-! # Texts that fall apart where they were joined

A cut finds the first occurrence of a separator.  When a text was joined from
pieces, the cut finds the joint unless the separator also starts inside a piece,
be it that it only ends behind it.  `Skips sep a rest` rules that out: inside `a`
no occurrence of `sep` starts when `rest` follows.  The separators of multipart
bodies, of heads and of lines all meet it (`skips_of_apart`, `skips_of_not_mem`),
and then cutting undoes joining (`splitOn_joined`, `lines_joinLines`).
-/
namespace OData
namespace Text

/-! ## Deciding

A statement about the characters of a text is decided along the text, never over all
the characters that there are. -/

instance (priority := high) decidableForallMem (p : Char → Prop) [DecidablePred p]
    (s : List Char) : Decidable (∀ c ∈ s, p c) := List.decidableBAll p s

instance (priority := high) decidableForallMem? (p : Char → Prop) [DecidablePred p]
    (c? : Option Char) : Decidable (∀ c ∈ c?, p c) := Option.decidableForallMem c?

/-! ## Separators that start nowhere in a piece -/

/-- No occurrence of `sep` starts inside `a` when `rest` follows. -/
def Skips (sep a rest : List Char) : Prop := ∀ t, t ≠ [] → t <:+ a → ¬ sep <+: t ++ rest

theorem skips_nil (sep rest : List Char) : Skips sep [] rest := fun _ ht h =>
  absurd (List.suffix_nil.mp h) ht

theorem skips_cons {sep a rest : List Char} {c : Char} :
    Skips sep (c :: a) rest ↔ ¬ sep <+: c :: (a ++ rest) ∧ Skips sep a rest := by
  constructor
  · intro h
    exact ⟨h (c :: a) (by simp) (List.suffix_refl _),
      fun t ht hs => h t ht (hs.trans (List.suffix_cons c a))⟩
  · rintro ⟨hc, h⟩ t ht hs
    rcases List.suffix_cons_iff.mp hs with rfl | hs
    · exact hc
    · exact h t ht hs

theorem skips_append {sep a b rest : List Char} :
    Skips sep (a ++ b) rest ↔ Skips sep a (b ++ rest) ∧ Skips sep b rest := by
  induction a with
  | nil => simp [skips_nil]
  | cons c a ih => rw [List.cons_append, skips_cons, skips_cons, ih, List.append_assoc, and_assoc]

/-- A separator cannot start in a piece that lacks its first character. -/
theorem skips_of_not_mem {sep a rest : List Char} {c : Char} (h : c ∉ a) :
    Skips (c :: sep) a rest := by
  induction a with
  | nil => exact skips_nil _ _
  | cons x a ih =>
    rw [List.mem_cons, not_or] at h
    refine skips_cons.mpr ⟨fun hp => h.1 ?_, ih h.2⟩
    exact (List.cons_prefix_cons.mp hp).1

/-- A piece without the separator that also ends in a character the separator
lacks. -/
structure Apart (sep a : List Char) : Prop where
  absent : ¬ sep <:+: a
  last : ∀ c ∈ a.getLast?, c ∉ sep

/-- A separator that does not occur in such a piece does not start in it and end
behind it either. -/
theorem skips_of_apart {sep a rest : List Char} (h : Apart sep a) : Skips sep a rest := by
  intro t ht hs hp
  -- An occurrence ends in the piece, or it covers the end of the piece.
  rcases Nat.le_total sep.length t.length with hl | hl
  · exact h.absent ((List.prefix_of_prefix_length_le hp (List.prefix_append t rest) hl).isInfix.trans
      hs.isInfix)
  · have hts : t <+: sep := List.prefix_of_prefix_length_le (List.prefix_append t rest) hp hl
    obtain ⟨x, hx⟩ : ∃ x, t.getLast? = some x := by
      cases hx : t.getLast? with
      | none => exact absurd (List.getLast?_eq_none_iff.mp hx) ht
      | some x => exact ⟨x, rfl⟩
    obtain ⟨f, rfl⟩ := hs
    refine h.last x ?_ (hts.subset (List.mem_of_getLast? hx))
    rw [List.getLast?_append, hx]
    rfl

/-- What neither starts in a piece nor occurs behind it does not occur. -/
theorem not_infix_append_of_skips {sep a rest : List Char} (hs : Skips sep a rest)
    (h : ¬ sep <:+: rest) : ¬ sep <:+: a ++ rest := by
  induction a with
  | nil => exact h
  | cons c a ih =>
    obtain ⟨hc, ha⟩ := skips_cons.mp hs
    rw [List.cons_append, List.infix_cons_iff]
    rintro (hp | hp)
    · exact hc hp
    · exact ih ha hp

/-- A separator does not reach across a character that it lacks. -/
theorem not_infix_append_cons {sep a b : List Char} {c : Char} (hc : c ∉ sep)
    (ha : ¬ sep <:+: a) (hb : ¬ sep <:+: b) : ¬ sep <:+: a ++ c :: b := by
  have happart : Apart sep (a ++ [c]) := by
    refine ⟨?_, by simpa using hc⟩
    rw [List.infix_concat_iff, List.suffix_concat_iff]
    rintro ((rfl | ⟨t, rfl, -⟩) | hi)
    · exact ha (List.nil_infix ..)
    · exact hc (by simp)
    · exact ha hi
  rw [List.append_cons]
  exact not_infix_append_of_skips (skips_of_apart happart) hb

/-! ## Cuts -/

theorem cutAt?_of_skips {sep a rest : List Char} (h : Skips sep a rest) :
    cutAt? sep (a ++ rest) = (cutAt? sep rest).map fun p => (a ++ p.1, p.2) := by
  induction a with
  | nil => simp
  | cons c a ih =>
    obtain ⟨hc, ha⟩ := skips_cons.mp h
    rw [List.cons_append, cutAt?, if_neg, ih ha, Option.map_map]
    · rfl
    · exact fun hp => hc (List.isPrefixOf_iff_prefix.mp hp)

theorem cutAt?_self (c : Char) (sep b : List Char) :
    cutAt? (c :: sep) (c :: sep ++ b) = some ([], b) := by
  rw [List.cons_append, cutAt?, if_pos]
  · simp
  · exact List.isPrefixOf_iff_prefix.mpr (List.prefix_append (c :: sep) b)

/-- The cut at a joint. -/
theorem cutAt?_joint {c : Char} {sep a b : List Char} (h : Skips (c :: sep) a (c :: sep ++ b)) :
    cutAt? (c :: sep) (a ++ (c :: sep ++ b)) = some (a, b) := by
  rw [cutAt?_of_skips h, cutAt?_self]
  simp

theorem cutAt?_eq_none {c : Char} {sep a : List Char} (h : ¬ (c :: sep) <:+: a) :
    cutAt? (c :: sep) a = none := by
  cases ha : cutAt? (c :: sep) a with
  | none => rfl
  | some p =>
    obtain ⟨x, y⟩ := p
    exact absurd ⟨x, y, (eq_append_of_cutAt? ha).symm⟩ h

theorem not_infix_of_cutAt?_eq_none {c : Char} {sep s : List Char}
    (h : cutAt? (c :: sep) s = none) : ¬ c :: sep <:+: s := by
  induction s with
  | nil => simp
  | cons x s ih =>
    rw [cutAt?] at h
    split at h
    · cases h
    · next hstart =>
      rw [List.infix_cons_iff, ← List.isPrefixOf_iff_prefix]
      rintro (hhead | hwithin)
      · exact hstart hhead
      · exact ih (Option.map_eq_none_iff.mp h) hwithin

/-- A cut does not depend on what stands behind the text. -/
theorem cutAt?_append {c : Char} {sep s a b : List Char} (h : cutAt? (c :: sep) s = some (a, b))
    (rest : List Char) : cutAt? (c :: sep) (s ++ rest) = some (a, b ++ rest) := by
  induction s generalizing a with
  | nil => cases h
  | cons x s ih =>
    rw [cutAt?] at h
    rw [List.cons_append, cutAt?]
    split at h
    · next hhead =>
      obtain ⟨t, ht⟩ := List.isPrefixOf_iff_prefix.mp hhead
      cases h
      rw [← List.cons_append, ← ht, List.append_assoc, List.drop_left, List.drop_left,
        if_pos (List.isPrefixOf_iff_prefix.mpr (List.prefix_append _ _))]
    · next hhead =>
      obtain ⟨⟨a', b'⟩, hcut, heq⟩ := Option.map_eq_some_iff.mp h
      cases heq
      have hwithin := length_of_cutAt? hcut
      -- The text is longer than the separator, so what is behind it adds no start.
      rw [if_neg, ih hcut]
      · rfl
      · intro hprefix
        refine hhead (List.isPrefixOf_iff_prefix.mpr ?_)
        refine List.prefix_of_prefix_length_le (List.isPrefixOf_iff_prefix.mp hprefix)
          (List.prefix_append (x :: s) rest) ?_
        simp only [List.length_cons] at hwithin ⊢
        omega

/-- What is cut at only when more stands behind a text ends behind that text. -/
theorem length_lt_of_cutAt?_append {c : Char} {sep s rest a b : List Char}
    (hnone : cutAt? (c :: sep) s = none) (h : cutAt? (c :: sep) (s ++ rest) = some (a, b)) :
    s.length < a.length + (c :: sep).length := by
  rw [← Nat.not_le, ← List.length_append]
  intro hle
  have hprefix : a ++ c :: sep <+: s ++ rest := ⟨b, (eq_append_of_cutAt? h).symm⟩
  have hwithin := List.prefix_of_prefix_length_le hprefix (List.prefix_append s rest) hle
  exact not_infix_of_cutAt?_eq_none hnone ((List.suffix_append _ _).isInfix.trans hwithin.isInfix)

/-- At a separator behind a text that the separator does not go on from, both sides are
cut on their own. -/
theorem splitOn_append {c : Char} {sep a : List Char} (last : ∀ x ∈ a.getLast?, x ∉ c :: sep)
    (b : List Char) :
    splitOn c sep (a ++ (c :: sep ++ b)) = splitOn c sep a ++ splitOn c sep b := by
  fun_induction splitOn c sep a with
  | case1 a hnone =>
    have happart : Apart (c :: sep) a := ⟨not_infix_of_cutAt?_eq_none hnone, last⟩
    rw [splitOn_eq_of_some (cutAt?_joint (skips_of_apart happart))]
    rfl
  | case2 a u v hcut _ ih =>
    have hv : ∀ x ∈ v.getLast?, x ∉ c :: sep := by
      intro x hx
      refine last x ?_
      rw [eq_append_of_cutAt? hcut, List.getLast?_append, hx]
      rfl
    rw [splitOn_eq_of_some (cutAt?_append hcut _), ih hv]
    rfl

/-- Cutting everywhere undoes joining with the separator in front of each piece
but the first. -/
theorem splitOn_joined {c : Char} {sep first last : List Char} {pieces : List (List Char)}
    (hf : Apart (c :: sep) first) (hp : ∀ p ∈ pieces, Apart (c :: sep) p)
    (hl : ¬ (c :: sep) <:+: last) :
    splitOn c sep (first ++ (pieces.flatMap (fun p => c :: sep ++ p) ++ (c :: sep ++ last))) =
      first :: (pieces ++ [last]) := by
  have hwhole : ∀ {t}, ¬ (c :: sep) <:+: t → splitOn c sep t = [t] := fun ht =>
    splitOn_eq_of_none (cutAt?_eq_none ht)
  induction pieces generalizing first with
  | nil =>
    rw [List.flatMap_nil, List.nil_append, splitOn_append hf.last, hwhole hf.absent, hwhole hl]
    rfl
  | cons p pieces ih =>
    have hrest := ih (hp p (List.mem_cons_self ..)) fun q hq => hp q (List.mem_cons_of_mem _ hq)
    rw [List.flatMap_cons, List.append_assoc, List.append_assoc, splitOn_append hf.last,
      hwhole hf.absent, hrest]
    rfl

theorem cutFirst?_joint {c : Char} {a b : List Char} (h : c ∉ a) :
    cutFirst? c (a ++ c :: b) = some (a, b) := by
  induction a with
  | nil => simp [cutFirst?]
  | cons x a ih =>
    rw [List.mem_cons, not_or] at h
    rw [List.cons_append, cutFirst?, if_neg (Ne.symm h.1), ih h.2]
    rfl

theorem cutLast?_joint {c : Char} {a b : List Char} (h : c ∉ b) :
    cutLast? c (a ++ c :: b) = some (a, b) := by
  have hr : (a ++ c :: b).reverse = b.reverse ++ c :: a.reverse := by simp
  rw [cutLast?, hr, cutFirst?_joint (by simpa using h)]
  simp

theorem eq_append_of_cutFirst? {c : Char} {s a b : List Char} (h : cutFirst? c s = some (a, b)) :
    s = a ++ c :: b := by
  induction s generalizing a with
  | nil => cases h
  | cons x s ih =>
    rw [cutFirst?] at h
    split at h
    · next hx =>
      cases h
      rw [hx, List.nil_append]
    · obtain ⟨⟨a', b'⟩, hcut, heq⟩ := Option.map_eq_some_iff.mp h
      cases heq
      rw [ih hcut, List.cons_append]

theorem eq_append_of_cutLast? {c : Char} {s a b : List Char} (h : cutLast? c s = some (a, b)) :
    s = a ++ c :: b := by
  obtain ⟨⟨b', a'⟩, hcut, heq⟩ := Option.map_eq_some_iff.mp h
  cases heq
  rw [← List.reverse_reverse s, eq_append_of_cutFirst? hcut]
  simp

/-- A character of joined texts is one of theirs or of the separator. -/
theorem mem_intercalate {c : Char} {sep : List Char} {ls : List (List Char)}
    (h : c ∈ sep.intercalate ls) : c ∈ sep ∨ ∃ l ∈ ls, c ∈ l := by
  induction ls with
  | nil => cases h
  | cons l ls ih =>
    cases ls with
    | nil => exact .inr ⟨l, by simp, by simpa using h⟩
    | cons m ls =>
      rw [List.intercalate_cons_cons, List.mem_append, List.mem_append] at h
      rcases h with (h | h) | h
      · exact .inr ⟨l, by simp, h⟩
      · exact .inl h
      · rcases ih h with h | ⟨k, hk, h⟩
        · exact .inl h
        · exact .inr ⟨k, List.mem_cons_of_mem _ hk, h⟩

theorem length_le_of_mem_intercalate {sep l : List Char} {ls : List (List Char)} (h : l ∈ ls) :
    l.length ≤ (sep.intercalate ls).length := by
  induction ls with
  | nil => cases h
  | cons m ls ih =>
    cases ls with
    | nil => simp_all
    | cons n ls =>
      rw [List.intercalate_cons_cons, List.length_append, List.length_append]
      rcases List.mem_cons.mp h with rfl | h
      · omega
      · have hrest := ih h
        omega

/-! ## Lines -/

/-- A carriage return and a line feed. -/
def crlf : List Char := ['\r', '\n']

/-- A text in one line. -/
def OneLine (s : List Char) : Prop := '\r' ∉ s ∧ '\n' ∉ s

instance (s : List Char) : Decidable (OneLine s) := inferInstanceAs (Decidable (_ ∧ _))

/-- Lines with a line end between each and the next. -/
def joinLines (ls : List (List Char)) : List Char := crlf.intercalate ls

@[simp] theorem joinLines_singleton (l : List Char) : joinLines [l] = l := by
  simp [joinLines, List.intercalate]

theorem joinLines_cons_cons (l m : List Char) (ls : List (List Char)) :
    joinLines (l :: m :: ls) = l ++ (crlf ++ joinLines (m :: ls)) := by
  simp [joinLines, List.intercalate]

/-- Lines with a line end behind each are joined lines with one more line end. -/
theorem flatMap_crlf {ls : List (List Char)} (h : ls ≠ []) :
    ls.flatMap (· ++ crlf) = joinLines ls ++ crlf := by
  induction ls with
  | nil => exact absurd rfl h
  | cons l ls ih =>
    cases ls with
    | nil => simp
    | cons m ls => rw [List.flatMap_cons, ih (by simp), joinLines_cons_cons, List.append_assoc,
        List.append_assoc, List.append_assoc]

theorem dropReturn_concat (l : List Char) : dropReturn (l ++ ['\r']) = l := by
  simp [dropReturn]

theorem dropReturn_eq_self {l : List Char} (h : '\r' ∉ l) : dropReturn l = l := by
  rw [dropReturn]
  split
  · next front hfront =>
    have hmem : '\r' ∈ l.reverse := hfront ▸ List.mem_cons_self ..
    exact absurd (List.mem_reverse.mp hmem) h
  · rfl

theorem lines_joinLines {ls : List (List Char)} (h : ∀ l ∈ ls, l ≠ [] ∧ '\n' ∉ l) :
    lines (joinLines ls) = ls := by
  induction ls with
  | nil => rfl
  | cons l ls ih =>
    obtain ⟨hne, hl⟩ := h l (List.mem_cons_self ..)
    cases ls with
    | nil => simp [lines, List.splitOn_eq_singleton hl, lines.go, hne]
    | cons m ls =>
      have hr := ih fun x hx => h x (List.mem_cons_of_mem _ hx)
      -- Lines are cut at line feeds, and each drops its own carriage return.
      have hn : '\n' ∉ l ++ ['\r'] := by simpa using hl
      have hs : joinLines (l :: m :: ls) = (l ++ ['\r']) ++ '\n' :: joinLines (m :: ls) := by
        simp [joinLines_cons_cons, crlf]
      rw [lines, hs, List.splitOn_append_cons_self_of_not_mem hn]
      cases hq : (joinLines (m :: ls)).splitOn '\n' with
      | nil => exact absurd hq (List.splitOn_ne_nil _ _)
      | cons q qs =>
        rw [lines, hq] at hr
        rw [lines.go, dropReturn_concat, hr]
        simp

/-! ## Trimming and words -/

theorem dropEndWhile_append {p : Char → Bool} {a b : List Char} (ha : ∀ c ∈ a.getLast?, p c = false)
    (hb : ∀ c ∈ b, p c = true) : dropEndWhile p (a ++ b) = a := by
  unfold dropEndWhile
  rw [List.reverse_append, List.dropWhile_append_of_pos (by simpa using hb)]
  cases hr : a.reverse with
  | nil => simpa using hr.symm
  | cons x r =>
    have hx : p x = false := ha x (by rw [← List.reverse_reverse a, hr]; simp)
    rw [List.dropWhile_cons_of_neg (by simp [hx]), ← hr, List.reverse_reverse]

/-- What satisfies `p` around a text is dropped, and the text stays. -/
theorem dropAround_append {p : Char → Bool} {a s b : List Char} (ha : ∀ c ∈ a, p c = true)
    (hf : ∀ c ∈ s.head?, p c = false) (hl : ∀ c ∈ s.getLast?, p c = false)
    (hb : ∀ c ∈ b, p c = true) : dropAround p (a ++ (s ++ b)) = s := by
  rw [dropAround, List.dropWhile_append_of_pos ha]
  cases s with
  | nil =>
    have hdrop : b.dropWhile p = [] := by
      rw [← List.append_nil b, List.dropWhile_append_of_pos hb, List.dropWhile_nil]
    rw [List.nil_append, hdrop, dropEndWhile_nil]
  | cons c s =>
    rw [List.cons_append, List.dropWhile_cons_of_neg (by simp [hf c rfl]), ← List.cons_append,
      dropEndWhile_append hl hb]

theorem dropAround_eq_self {p : Char → Bool} {s : List Char} (hf : ∀ c ∈ s.head?, p c = false)
    (hl : ∀ c ∈ s.getLast?, p c = false) : dropAround p s = s := by
  simpa using dropAround_append (a := []) (b := []) (by simp) hf hl (by simp)

/-- A text without white space at its ends. -/
def Trimmed (s : List Char) : Prop :=
  (∀ c ∈ s.head?, isBlank c = false) ∧ ∀ c ∈ s.getLast?, isBlank c = false

instance (s : List Char) : Decidable (Trimmed s) := inferInstanceAs (Decidable (_ ∧ _))

theorem trimmed_of_solid {s : List Char} (h : ∀ c ∈ s, isBlank c = false) : Trimmed s :=
  ⟨fun c hc => h c (List.mem_of_mem_head? hc), fun c hc => h c (List.mem_of_getLast? hc)⟩

theorem trim_eq_self {s : List Char} (h : Trimmed s) : trim s = s := dropAround_eq_self h.1 h.2

/-- The white space around a text is trimmed off. -/
theorem trim_append {a s b : List Char} (ha : ∀ c ∈ a, isBlank c = true) (h : Trimmed s)
    (hb : ∀ c ∈ b, isBlank c = true) : trim (a ++ (s ++ b)) = s := dropAround_append ha h.1 h.2 hb

theorem trim_cons {c : Char} {s : List Char} (h : isBlank c = true) : trim (c :: s) = trim s := by
  rw [trim, dropAround, List.dropWhile_cons_of_pos h]
  rfl

@[simp] theorem isBlank_space : isBlank ' ' = true := rfl

theorem trimmed_space {s : String} (h : Trimmed s.toList) : trimmed (" " ++ s) = s := by
  have hlist : (" " ++ s).toList = ' ' :: s.toList := by simp
  rw [trimmed, hlist, trim_cons isBlank_space, trim_eq_self h, String.ofList_toList]

theorem isBlank_eq_false_of_isAlphanum {c : Char} (h : c.isAlphanum = true) :
    isBlank c = false := by
  have hn : (65 ≤ c.toNat ∧ c.toNat ≤ 90 ∨ 97 ≤ c.toNat ∧ c.toNat ≤ 122) ∨
      48 ≤ c.toNat ∧ c.toNat ≤ 57 := by
    have hdef : c.isAlphanum = (decide (65 ≤ c.val ∧ c.val ≤ 90) ||
        decide (97 ≤ c.val) && decide (c.val ≤ 122) ||
        decide (48 ≤ c.val) && decide (c.val ≤ 57)) := rfl
    simpa [hdef, UInt32.le_iff_toNat_le] using h
  simp only [isBlank, Bool.or_eq_false_iff, Bool.and_eq_false_iff, decide_eq_false_iff_not,
    beq_eq_false_iff_ne]
  omega

theorem words_go_append {w s : List Char} (word : List Char) (hw : ∀ c ∈ w, isBlank c = false) :
    words.go word (w ++ s) = words.go (w.reverse ++ word) s := by
  induction w generalizing word with
  | nil => rfl
  | cons c w ih =>
    rw [List.cons_append, words.go, if_neg (by simp [hw c (List.mem_cons_self ..)]),
      ih _ fun x hx => hw x (List.mem_cons_of_mem _ hx)]
    simp

/-- The first word of a text. -/
theorem words_cons {w s : List Char} {c : Char} (hne : w ≠ [])
    (hw : ∀ x ∈ w, isBlank x = false) (hc : isBlank c = true) :
    words (w ++ c :: s) = w :: words s := by
  rw [words, words_go_append [] hw, words.go, if_pos hc, if_neg (by simp [hne])]
  simp [words]

end Text
end OData
