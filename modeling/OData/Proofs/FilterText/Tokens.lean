import OData.Filter
import OData.Proofs.Text.Cutting

/-! # Tokens of filter text

Filter text falls into words, parentheses and commas.  A string in single quotes is
part of one word, whatever stands in it; a quote written twice does not end it.  A
word directly in front of a parenthesis is the head of a call, and a name directly
in front of a colon binds a variable.

`lexFrom_append` is what makes the tokens of a text the tokens of its parts: a part
that is complete keeps its tokens in front of white space, a comma or a closing
parenthesis.
-/
namespace OData
namespace FilterText

open Text

/-! ## Names and operators -/

/-- A character of a name. -/
def isNameChar (c : Char) : Bool :=
  c.isAlphanum || c == '_' || (127 < c.toNat && !isBlank c)

/-- A name starts with no digit. -/
def IsName (w : List Char) : Prop :=
  w ≠ [] ∧ (∀ c ∈ w, isNameChar c = true) ∧ ∀ c ∈ w.head?, c.isDigit = false

instance (w : List Char) : Decidable (IsName w) := inferInstanceAs (Decidable (_ ∧ _ ∧ _))

/-- The words that stand between operands or in front of one. -/
def operators : List (List Char) :=
  BinaryOp.all.map (fun op => op.symbol.toList) ++ ["not".toList, "in".toList]

/-! ## Tokens -/

inductive Token where
  | word (w : List Char)
  /-- A word and the parenthesis that follows it. -/
  | head (w : List Char)
  /-- A name and the colon that follows it. -/
  | binder (x : List Char)
  | opening
  | closing
  | comma
  deriving DecidableEq, Repr

/-- What a character continues. -/
inductive Mode where
  /-- A word without a quoted string so far; an empty one has not started. -/
  | plain (w : List Char)
  /-- A word inside a quoted string. -/
  | quoted (w : List Char)
  /-- A word behind a quote that ends a string unless another one follows. -/
  | closing (w : List Char)

/-- The token of a word, if there is one. -/
def wordTokens (w : List Char) : List Token := if w = [] then [] else [.word w]

/-- The tokens of a word and the parenthesis that follows it.  An operator is no
head of a call. -/
def headTokens (w : List Char) : List Token :=
  if w = [] then [.opening]
  else if operators.contains w then [.word w, .opening]
  else [.head w]

/-- What a character behind the word `w` completes, and what it leaves. -/
def nextPlain (w : List Char) (c : Char) : List Token × Mode :=
  if c = '\'' then ([], .quoted (w ++ [c]))
  else if isBlank c then (wordTokens w, .plain [])
  else if c = '(' then (headTokens w, .plain [])
  else if c = ')' then (wordTokens w ++ [.closing], .plain [])
  else if c = ',' then (wordTokens w ++ [.comma], .plain [])
  -- Any other colon belongs to a date.
  else if c = ':' ∧ IsName w then ([.binder w], .plain [])
  else ([], .plain (w ++ [c]))

def next : Mode → Char → List Token × Mode
  | .plain w, c => nextPlain w c
  | .quoted w, c => ([], if c = '\'' then .closing (w ++ [c]) else .quoted (w ++ [c]))
  | .closing w, c =>
    -- A second quote stands for one in the string.
    if c = '\'' then ([], .quoted (w ++ [c]))
    else (wordTokens w ++ (nextPlain [] c).1, (nextPlain [] c).2)

/-- The tokens of a text, from the mode on; a string must end. -/
def lexFrom : Mode → List Char → Option (List Token)
  | .plain w, [] => some (wordTokens w)
  | .closing w, [] => some (wordTokens w)
  | .quoted _, [] => none
  | m, c :: s => (lexFrom (next m c).2 s).map ((next m c).1 ++ ·)

/-- The tokens of a text. -/
def lex (s : List Char) : Option (List Token) := lexFrom (.plain []) s

@[simp] theorem isBlank_opening : isBlank '(' = false := rfl

@[simp] theorem isBlank_closing : isBlank ')' = false := rfl

@[simp] theorem isBlank_comma : isBlank ',' = false := rfl

@[simp] theorem isBlank_colon : isBlank ':' = false := rfl

/-! ## Tokens of joined texts -/

/-- A text that ends the word in front of it. -/
def Stops (s : List Char) : Prop := ∀ c ∈ s.head?, isBlank c = true ∨ c = ')' ∨ c = ','

@[simp] theorem stops_nil : Stops [] := by simp [Stops]

@[simp] theorem stops_cons (c : Char) (s : List Char) :
    Stops (c :: s) ↔ isBlank c = true ∨ c = ')' ∨ c = ',' := by simp [Stops]

theorem lexFrom_cons (m : Mode) (c : Char) (s : List Char) :
    lexFrom m (c :: s) = (lexFrom (next m c).2 s).map ((next m c).1 ++ ·) := by
  cases m <;> rfl

theorem nextPlain_stop {c : Char} (h : isBlank c = true ∨ c = ')' ∨ c = ',') (w : List Char) :
    nextPlain w c = (wordTokens w ++ (nextPlain [] c).1, (nextPlain [] c).2) := by
  have hq : c ≠ '\'' := by
    rintro rfl
    revert h
    decide
  have hp : c ≠ '(' := by
    rintro rfl
    revert h
    decide
  rcases h with h | rfl | rfl
  · simp [nextPlain, hq, h, wordTokens]
  · simp [nextPlain, wordTokens]
  · simp [nextPlain, wordTokens]

theorem lexFrom_stops {s : List Char} (h : Stops s) (w : List Char) :
    lexFrom (.plain w) s = (lex s).map (wordTokens w ++ ·) ∧
      lexFrom (.closing w) s = (lex s).map (wordTokens w ++ ·) := by
  cases s with
  | nil => simp [lex, lexFrom, wordTokens]
  | cons c s =>
    rw [stops_cons] at h
    have hq : c ≠ '\'' := by
      rintro rfl
      revert h
      decide
    rw [lex, lexFrom_cons, lexFrom_cons, lexFrom_cons]
    simp only [next, if_neg hq, nextPlain_stop h w, Option.map_map]
    simp [Function.comp_def]

/-- A complete text keeps its tokens. -/
theorem lexFrom_append {m : Mode} {s rest : List Char} {ts : List Token}
    (h : lexFrom m s = some ts) (hr : Stops rest) :
    lexFrom m (s ++ rest) = (lex rest).map (ts ++ ·) := by
  induction s generalizing m ts with
  | nil =>
    -- The word that is still open cannot grow any more.
    cases m with
    | plain w =>
      obtain rfl : wordTokens w = ts := Option.some.inj h
      exact (lexFrom_stops hr w).1
    | quoted w => cases h
    | closing w =>
      obtain rfl : wordTokens w = ts := Option.some.inj h
      exact (lexFrom_stops hr w).2
  | cons c s ih =>
    rw [lexFrom_cons] at h
    obtain ⟨us, hus, rfl⟩ := Option.map_eq_some_iff.mp h
    rw [List.cons_append, lexFrom_cons, ih hus, Option.map_map]
    congr 1
    funext vs
    simp

theorem lex_append {s rest : List Char} {ts us : List Token} (h : lex s = some ts)
    (hr : Stops rest) (hrest : lex rest = some us) : lex (s ++ rest) = some (ts ++ us) := by
  rw [lex, lexFrom_append h hr, hrest]
  rfl

@[simp] theorem lex_space (s : List Char) : lex (' ' :: s) = lex s := by
  rw [lex, lexFrom_cons]
  simp [next, nextPlain, wordTokens, lex]

@[simp] theorem lex_opening (s : List Char) : lex ('(' :: s) = (lex s).map (.opening :: ·) := by
  rw [lex, lexFrom_cons]
  simp [next, nextPlain, headTokens, lex]

@[simp] theorem lex_comma (s : List Char) : lex (',' :: s) = (lex s).map (.comma :: ·) := by
  rw [lex, lexFrom_cons]
  simp [next, nextPlain, wordTokens, lex]

/-! ## Words -/

/-- A character that a word is made of. -/
def isWordChar (c : Char) : Bool :=
  !isBlank c && c != '(' && c != ')' && c != ',' && c != '\''

/-- A text that is one word and no variable bound in front of another. -/
structure IsWord (w : List Char) : Prop where
  nonempty : w ≠ []
  chars : ∀ c ∈ w, isWordChar c = true
  unbound : ∀ p s, w = p ++ ':' :: s → ¬ IsName p

theorem lexFrom_plain_append {w : List Char} (acc : List Char) (chars : ∀ c ∈ w, isWordChar c = true)
    (unbound : ∀ p s, w = p ++ ':' :: s → ¬ IsName (acc ++ p)) (rest : List Char) :
    lexFrom (.plain acc) (w ++ rest) = lexFrom (.plain (acc ++ w)) rest := by
  induction w generalizing acc with
  | nil => simp
  | cons c w ih =>
    have hc := chars c (List.mem_cons_self ..)
    have hb : ¬ (c = ':' ∧ IsName acc) := by
      rintro ⟨rfl, hacc⟩
      exact unbound [] w rfl (by simpa using hacc)
    simp only [isWordChar, Bool.and_eq_true, Bool.not_eq_true', bne_iff_ne] at hc
    obtain ⟨⟨⟨⟨h1, h2⟩, h3⟩, h4⟩, h5⟩ := hc
    have hnext : next (.plain acc) c = ([], .plain (acc ++ [c])) := by
      simp [next, nextPlain, h1, h2, h3, h4, h5, hb]
    rw [List.cons_append, lexFrom_cons, hnext, ih _ fun x hx => chars x (List.mem_cons_of_mem _ hx)]
    · simp
    · intro p s hw
      rw [List.append_assoc, List.singleton_append]
      exact unbound (c :: p) s (by rw [hw, List.cons_append])

theorem IsWord.lex {w : List Char} (h : IsWord w) : lex w = some [.word w] := by
  have hw := lexFrom_plain_append [] h.chars (by simpa using h.unbound) []
  rw [List.append_nil, List.nil_append] at hw
  rw [FilterText.lex, hw, lexFrom, wordTokens, if_neg h.nonempty]

/-- The head of a call. -/
theorem IsWord.lex_head {w : List Char} (h : IsWord w) (hop : w ∉ operators) (rest : List Char) :
    FilterText.lex (w ++ '(' :: rest) = (FilterText.lex rest).map (.head w :: ·) := by
  have hw := lexFrom_plain_append [] h.chars (by simpa using h.unbound) ('(' :: rest)
  rw [List.nil_append] at hw
  rw [FilterText.lex, hw, lexFrom_cons]
  simp [next, nextPlain, headTokens, h.nonempty, hop, FilterText.lex]

theorem isWordChar_of_isNameChar {c : Char} (h : isNameChar c = true) :
    isWordChar c = true ∧ c ≠ ':' := by
  have hspecial : ∀ x ∈ ['(', ')', ',', '\'', ':'], c ≠ x := by
    rintro x hx rfl
    revert h
    simp only [List.mem_cons, List.not_mem_nil, or_false] at hx
    rcases hx with rfl | rfl | rfl | rfl | rfl <;> decide
  have hblank : isBlank c = false := by
    simp only [isNameChar, Bool.or_eq_true, beq_iff_eq, Bool.and_eq_true,
      Bool.not_eq_true'] at h
    rcases h with (h | rfl) | ⟨_, h⟩
    · exact isBlank_eq_false_of_isAlphanum h
    · decide
    · exact h
  simp only [List.mem_cons, List.not_mem_nil, or_false, forall_eq_or_imp, forall_eq] at hspecial
  simp [isWordChar, hblank, hspecial]

theorem isWord_of_not_mem_colon {w : List Char} (nonempty : w ≠ [])
    (chars : ∀ c ∈ w, isWordChar c = true) (colon : ':' ∉ w) : IsWord w where
  nonempty := nonempty
  chars := chars
  unbound := by
    rintro p s rfl
    simp at colon

theorem IsName.isWord {w : List Char} (h : IsName w) : IsWord w :=
  isWord_of_not_mem_colon h.1 (fun c hc => (isWordChar_of_isNameChar (h.2.1 c hc)).1)
    fun hm => (isWordChar_of_isNameChar (h.2.1 _ hm)).2 rfl

/-- A bound variable. -/
theorem IsName.lex_binder {w : List Char} (h : IsName w) (rest : List Char) :
    lex (w ++ ':' :: rest) = (lex rest).map (.binder w :: ·) := by
  have hw := lexFrom_plain_append [] h.isWord.chars (by simpa using h.isWord.unbound)
    (':' :: rest)
  rw [List.nil_append] at hw
  rw [lex, hw, lexFrom_cons]
  simp [next, nextPlain, h, lex]

/-- A text that starts like no name is one word, also with a colon in it. -/
theorem isWord_of_first {c : Char} {w : List Char} (chars : ∀ x ∈ c :: w, isWordChar x = true)
    (first : c.isDigit = true ∨ isNameChar c = false) : IsWord (c :: w) where
  nonempty := by simp
  chars := chars
  unbound := by
    rintro p s hw ⟨hne, hname, hdigit⟩
    obtain ⟨x, p, rfl⟩ := List.exists_cons_of_ne_nil hne
    obtain rfl : c = x := (List.cons.inj hw).1
    rcases first with h | h
    · rw [hdigit c rfl] at h
      cases h
    · rw [hname c (List.mem_cons_self ..)] at h
      cases h

/-! ## Quoted strings -/

theorem lexFrom_quoted (acc s : List Char) :
    lexFrom (.quoted acc) (doubleQuotes s ++ ['\'']) =
      some [.word (acc ++ (doubleQuotes s ++ ['\'']))] := by
  induction s generalizing acc with
  | nil => simp [lexFrom, next, wordTokens]
  | cons c s ih =>
    by_cases hc : c = '\''
    · subst hc
      rw [doubleQuotes, if_pos rfl, List.cons_append, List.cons_append, lexFrom_cons, lexFrom_cons]
      simp [next, ih]
    · rw [doubleQuotes, if_neg hc, List.cons_append, lexFrom_cons]
      simp [next, hc, ih]

/-- A quoted string is one word, whatever it holds. -/
theorem lex_quoted (s : String) : lex (quoted s).toList = some [.word (quoted s).toList] := by
  rw [toList_quoted, lex, lexFrom_cons]
  simp [next, nextPlain, lexFrom_quoted]

/-! ## Paths -/

/-- Names between slashes are one word. -/
theorem isWord_path {names : List String} (hne : names ≠ [])
    (h : ∀ n ∈ names, IsName n.toList) : IsWord (String.intercalate "/" names).toList := by
  rw [String.toList_intercalate]
  have hchar : ∀ c ∈ "/".toList.intercalate (names.map String.toList),
      isWordChar c = true ∧ c ≠ ':' := by
    intro c hc
    rcases mem_intercalate hc with hc | ⟨l, hl, hc⟩
    · obtain rfl : c = '/' := by simpa using hc
      decide
    · obtain ⟨n, hn, rfl⟩ := List.mem_map.mp hl
      exact isWordChar_of_isNameChar ((h n hn).2.1 c hc)
  refine isWord_of_not_mem_colon ?_ (fun c hc => (hchar c hc).1) fun hm => (hchar _ hm).2 rfl
  obtain ⟨n, names, rfl⟩ := List.exists_cons_of_ne_nil hne
  have hn := (h n (List.mem_cons_self ..)).1
  cases names with
  | nil => simpa using hn
  | cons m names => simp [List.intercalate_cons_cons]

/-! ## Larger texts -/

variable {s t w : List Char} {ts us : List Token}

theorem lex_group (h : lex s = some ts) :
    lex ('(' :: (s ++ [')'])) = some (.opening :: (ts ++ [.closing])) := by
  have hs : lex (s ++ [')']) = some (ts ++ [.closing]) := lex_append h (by simp) rfl
  rw [lex_opening, hs]
  rfl

theorem lex_operator (op : BinaryOp) (hs : lex s = some ts) (ht : lex t = some us) :
    lex (s ++ ' ' :: (op.symbol.toList ++ ' ' :: t)) =
      some (ts ++ .word op.symbol.toList :: us) := by
  have hop : lex op.symbol.toList = some [.word op.symbol.toList] := by cases op <;> rfl
  refine lex_append hs (by simp) ?_
  rw [lex_space]
  exact lex_append hop (by simp) (by rw [lex_space, ht])

theorem IsWord.lex_call (hw : IsWord w) (hop : w ∉ operators) (h : FilterText.lex s = some ts) :
    FilterText.lex (w ++ '(' :: (s ++ [')'])) = some (.head w :: (ts ++ [.closing])) := by
  have hs : FilterText.lex (s ++ [')']) = some (ts ++ [.closing]) := lex_append h (by simp) rfl
  rw [hw.lex_head hop, hs]
  rfl

theorem lex_commas (args : List (List Char × List Token)) (h : ∀ x ∈ args, lex x.1 = some x.2) :
    lex ([','].intercalate (args.map Prod.fst)) =
      some ([.comma].intercalate (args.map Prod.snd)) := by
  induction args with
  | nil => rfl
  | cons x args ih =>
    have hx := h x (List.mem_cons_self ..)
    cases args with
    | nil => simpa using hx
    | cons y args =>
      have hrest := ih fun z hz => h z (List.mem_cons_of_mem _ hz)
      rw [List.map_cons, List.map_cons, List.intercalate_cons_cons, List.map_cons, List.map_cons,
        List.intercalate_cons_cons, List.append_assoc, List.append_assoc]
      refine lex_append hx (by simp) ?_
      rw [List.singleton_append, lex_comma, ← List.map_cons, hrest]
      rfl

end FilterText
end OData
