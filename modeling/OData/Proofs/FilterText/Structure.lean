import OData.Proofs.FilterText.Literals
import OData.Proofs.FilterText.Reads
import OData.Proofs.FilterText.Written

/-! # The text of a filter says what the filter says

`reading f` is what a filter says, and `read_compile` the main statement: the text
of a regular filter reads as its reading.  The proof follows the nodes of the
filter.  Parentheses stand only around a disjunction and around raw text under a
connective.  `level_le_boundOf` is where it shows that nothing else needs them.

The operands of a comparison in a regular filter hold no operators.  `Grouped` admits
such as bind tight enough, and `read?_of_grouped` is the statement for those.
-/
namespace OData
namespace FilterText

open OData.Filter Text

/-! ## What a filter says -/

/-- The names that stand between slashes in the text of a path. -/
def pathNames (path : MemberPath) : List String :=
  match path.root with
  | .entity => path.segments
  | .bound x => x :: path.segments

/-- The text of a path. -/
def pathText (path : MemberPath) : String := String.intercalate "/" (pathNames path)

/-- The membership of a value in a list, which is false if the list is empty. -/
def membership (path : Expr) (items : List Literal) : Expr :=
  if items.isEmpty then .leaf "false" else .isIn path (items.map fun v => .leaf v.render)

/-- What a filter says.  A capture says its value, raw text what it reads as, and
`isNullOrEmpty` that its operand is null or the empty text. -/
def reading : Filter → Expr
  | .binary op left right => .join op (reading left) (reading right)
  | .not operand => .not (reading operand)
  | .member path => .leaf (pathText path)
  | .literal value => .leaf value.render
  | .captured c => .leaf c.value.render
  | .raw text => (read? text.toList).getD (.leaf text)
  | .quantified q collection name predicate =>
    match predicate with
    | none => .quantified q (pathText collection) none
    | some p => .quantified q (pathText collection) (some (name, reading p))
  | .call target name arguments =>
    match Method.ofName? name with
    | some (.test t) =>
      match target, arguments with
      | some receiver, [argument] => .call t.word [reading receiver, reading argument]
      | _, _ => .leaf name
    | some (.map m) =>
      match target, arguments with
      | some operand, [] | none, [operand] => .call m.word [reading operand]
      | _, _ => .leaf name
    | some .isNullOrEmpty =>
      match target, arguments with
      | some operand, [] | none, [operand] =>
        .join .or (.join .eq (reading operand) (.leaf "null"))
          (.join .eq (reading operand) (.leaf "''"))
      | _, _ => .leaf name
    | some .isIn =>
      match target, arguments with
      | some receiver, [argument] =>
        match constantItems? argument, constantItems? receiver with
        | some items, _ => membership (reading receiver) items
        | none, some items => membership (reading argument) items
        | none, none => .leaf name
      | _, _ => .leaf name
    | _ => .leaf name
termination_by structural f => f

/-! ## Regular filters -/

/-- A name that is no operator. -/
def IsIdentifier (s : String) : Prop := IsName s.toList ∧ s.toList ∉ operators

instance (s : String) : Decidable (IsIdentifier s) := inferInstanceAs (Decidable (_ ∧ _))

/-- A path of identifiers. -/
def IsPlain (path : MemberPath) : Prop := ∀ n ∈ pathNames path, IsIdentifier n

instance (path : MemberPath) : Decidable (IsPlain path) := inferInstanceAs (Decidable (∀ n ∈ _, _))

/-- What an operand of a comparison may be: a property, a value, or a call of a
string method. -/
def IsOperand : Filter → Prop
  | .member _ | .literal _ | .captured _ => True
  | .call _ name _ =>
    match Method.ofName? name with
    | some (.test _) | some (.map _) => True
    | _ => False
  | _ => False

/-- A filter whose names are identifiers, whose raw texts are grammatical, whose
lists are there to be searched and whose comparisons are between operands. -/
inductive Regular : Filter → Prop
  | binary {op left right} (l : Regular left) (r : Regular right)
      (operands : op.isConnective = false → IsOperand left ∧ IsOperand right) :
      Regular (.binary op left right)
  | not {operand} (r : Regular operand) : Regular (.not operand)
  | member {path} (plain : IsPlain path) : Regular (.member path)
  | literal {value} (scalar : IsScalar value) : Regular (.literal value)
  | captured {c} (scalar : IsScalar c.value) : Regular (.captured c)
  | raw {text e} (grammatical : read? text.toList = some e) : Regular (.raw text)
  | quantified {q collection name predicate} (plain : IsPlain collection)
      (named : ∀ p, predicate = some p → IsIdentifier name)
      (regular : ∀ p, predicate = some p → Regular p) :
      Regular (.quantified q collection name predicate)
  | call {target name arguments} (method : Method.ofName? name ≠ some .isIn)
      (regular : ∀ g ∈ target.toList ++ arguments, Regular g)
      (operands : Method.ofName? name = some .isNullOrEmpty →
        ∀ g ∈ target.toList ++ arguments, IsOperand g) :
      Regular (.call target name arguments)
  | isIn {name receiver argument path items} (method : Method.ofName? name = some .isIn)
      (has : HasItems receiver argument path items) (scalars : ∀ v ∈ items, IsScalar v)
      (regular : items ≠ [] → Regular path) (operand : items ≠ [] → IsOperand path) :
      Regular (.call (some receiver) name [argument])

/-! ## Paths and calls -/

variable {scope : List String} {path : MemberPath} {s : String}

theorem compilePath_eq_ok (h : compilePath scope path = .ok s) :
    s = pathText path ∧ pathNames path ≠ [] := by
  rw [compilePath] at h
  rw [pathText, pathNames]
  cases hroot : path.root with
  | entity =>
    simp only [hroot] at h ⊢
    split at h
    · cases h
    · next hne =>
      obtain rfl := Except.ok.inj h
      exact ⟨rfl, by simpa using hne⟩
  | bound x =>
    simp only [hroot] at h ⊢
    split at h
    · cases h
    · obtain rfl := Except.ok.inj h
      refine ⟨?_, by simp⟩
      split
      · next he => simp [List.isEmpty_iff.mp he]
      · next hne =>
        rw [String.intercalate_cons_of_ne_nil (by simpa using hne)]

theorem isWord_pathText (h : IsPlain path) (hne : pathNames path ≠ []) :
    IsWord (pathText path).toList ∧ (pathText path).toList ∉ operators := by
  refine ⟨isWord_path hne fun n hn => (h n hn).1, ?_⟩
  obtain ⟨n, names, hnames⟩ := List.exists_cons_of_ne_nil hne
  rw [pathText, hnames]
  cases names with
  | nil =>
    rw [String.intercalate_singleton]
    exact (h n (by simp [hnames])).2
  | cons m names =>
    exact not_mem_operators (c := '/') (by simp [String.intercalate_cons_cons]) rfl

/-- The head of a quantifier is one word, and read as the quantifier of its path. -/
theorem quantifier_head (q : Quantifier) (h : IsPlain path) (hne : pathNames path ≠ []) :
    IsWord (pathText path ++ "/" ++ q.word).toList ∧
      (pathText path ++ "/" ++ q.word).toList ∉ operators ∧
      Opener.ofHead (pathText path ++ "/" ++ q.word).toList = .quantifier q (pathText path) := by
  have hword : pathText path ++ "/" ++ q.word =
      String.intercalate "/" (pathNames path ++ [q.word]) := by
    rw [String.intercalate_append_of_ne_nil hne (by simp), String.intercalate_singleton, pathText]
  have hname : IsName q.word.toList := by cases q <;> decide
  have hslash : '/' ∉ q.word.toList := by cases q <;> decide
  refine ⟨?_, not_mem_operators (c := '/') (by simp) rfl, ?_⟩
  · rw [hword]
    refine isWord_path (by simp) fun n hn => ?_
    rcases List.mem_append.mp hn with hn | hn
    · exact (h n hn).1
    · rw [List.mem_singleton.mp hn]
      exact hname
  · have hlist : (pathText path ++ "/" ++ q.word).toList =
        (pathText path).toList ++ '/' :: q.word.toList := by simp
    rw [hlist, Opener.ofHead, cutLast?_joint hslash]
    cases q <;> simp [Quantifier.word]

theorem method_head :
    (∀ t : StringTest, IsWord t.word.toList ∧ t.word.toList ∉ operators ∧
      Opener.ofHead t.word.toList = .call t.word) ∧
    ∀ m : StringMap, IsWord m.word.toList ∧ m.word.toList ∉ operators ∧
      Opener.ofHead m.word.toList = .call m.word := by
  constructor
  · intro t
    cases t <;> exact ⟨isWord_of_not_mem_colon (by decide) (by decide) (by decide), by decide, rfl⟩
  · intro m
    cases m <;> exact ⟨isWord_of_not_mem_colon (by decide) (by decide) (by decide), by decide, rfl⟩

/-! ## Operands and their operators -/

/-- How tight the operators of a filter's text bind.  Raw text may have any. -/
def boundOf (parent : Option BinaryOp) : Filter → Nat
  | .binary op _ _ => if op = .or ∧ parent = some .and then primary else level op
  | .raw _ => if parent.any BinaryOp.isConnective then primary else 0
  | _ => primary

/-- No operand needs more parentheses than it has: those of a connective bind at
least as tight, and those of a comparison tighter than any operator. -/
theorem level_le_boundOf {op : BinaryOp} {f : Filter}
    (h : op.isConnective = false → IsOperand f) : level op ≤ boundOf (some op) f ∧
      (level op = boundOf (some op) f → op.isConnective = true) := by
  have hprimary : level op ≤ primary ∧ (level op = primary → op.isConnective = true) :=
    ⟨Nat.le_of_lt (level_lt_primary op), fun he => absurd (he ▸ level_lt_primary op) (by omega)⟩
  -- Only under a connective are there operators, or raw text, to compare with.
  cases f with
  | binary op' left right =>
    cases hc : op.isConnective with
    | false => exact (h hc).elim
    | true => cases op <;> cases op' <;> simp_all [boundOf, level, primary, BinaryOp.isConnective]
  | raw text =>
    cases hc : op.isConnective with
    | false => exact (h hc).elim
    | true => simpa [boundOf, hc] using hprimary.1
  | _ => exact hprimary

/-- The operators of both operands bind tight enough to stand without parentheses.
Operators of equal precedence group to the left. -/
def Binds (op : BinaryOp) (left right : Filter) : Prop :=
  level op ≤ boundOf (some op) left ∧ level op ≤ boundOf (some op) right ∧
    (level op = boundOf (some op) right → op.isConnective = true)

instance (op : BinaryOp) (left right : Filter) : Decidable (Binds op left right) :=
  inferInstanceAs (Decidable (_ ∧ _ ∧ _))

/-- A node whose text holds together before any operator, `in` among them. -/
def IsCompact : Filter → Prop
  | .binary .. | .not _ | .raw _ => False
  | _ => True

theorem IsOperand.isCompact {f : Filter} (h : IsOperand f) : IsCompact f := by
  cases f <;> first | exact trivial | exact h

theorem IsCompact.boundOf_eq {f : Filter} (h : IsCompact f) (parent : Option BinaryOp) :
    boundOf parent f = primary := by
  cases f <;> first | rfl | exact h.elim

/-- A filter like a regular one, but with operands of any kind.  They only have to
bind as tight as the place where they stand asks for. -/
inductive Grouped : Filter → Prop
  | binary {op left right} (l : Grouped left) (r : Grouped right) (binds : Binds op left right) :
      Grouped (.binary op left right)
  | not {operand} (r : Grouped operand) : Grouped (.not operand)
  | member {path : MemberPath} (plain : IsPlain path) : Grouped (.member path)
  | literal {value} (scalar : IsScalar value) : Grouped (.literal value)
  | captured {c} (scalar : IsScalar c.value) : Grouped (.captured c)
  | raw {text e} (grammatical : read? text.toList = some e) : Grouped (.raw text)
  | quantified {q collection name predicate} (plain : IsPlain collection)
      (named : ∀ p, predicate = some p → IsIdentifier name)
      (grouped : ∀ p, predicate = some p → Grouped p) :
      Grouped (.quantified q collection name predicate)
  | call {target name arguments} (method : Method.ofName? name ≠ some .isIn)
      (grouped : ∀ g ∈ target.toList ++ arguments, Grouped g)
      (binds : Method.ofName? name = some .isNullOrEmpty →
        ∀ g ∈ target.toList ++ arguments, level .eq ≤ boundOf none g) :
      Grouped (.call target name arguments)
  | isIn {name receiver argument} {path : Filter} {items}
      (method : Method.ofName? name = some .isIn) (has : HasItems receiver argument path items)
      (scalars : ∀ v ∈ items, IsScalar v) (grouped : items ≠ [] → Grouped path)
      (compact : items ≠ [] → IsCompact path) :
      Grouped (.call (some receiver) name [argument])

/-- Operands without operators need no parentheses anywhere. -/
theorem Regular.grouped {f : Filter} (h : Regular f) : Grouped f := by
  induction h with
  | binary l r operands ihl ihr =>
    have hleft := level_le_boundOf fun h => (operands h).1
    have hright := level_le_boundOf fun h => (operands h).2
    exact .binary ihl ihr ⟨hleft.1, hright⟩
  | not r ih => exact .not ih
  | member plain => exact .member plain
  | literal scalar => exact .literal scalar
  | captured scalar => exact .captured scalar
  | raw grammatical => exact .raw grammatical
  | quantified plain named regular ih => exact .quantified plain named ih
  | call method regular operands ih =>
    refine .call method ih fun hname g hg => ?_
    rw [(operands hname g hg).isCompact.boundOf_eq]
    decide
  | isIn method has scalars regular operand ih =>
    exact .isIn method has scalars ih fun hne => (operand hne).isCompact

/-! ## The text of a grouped filter -/

/-- A text that reads as `e` under operators that bind no tighter than `bound`. -/
def TextReads (bound : Nat) (text : List Char) (e : Expr) : Prop :=
  ∃ ts, lex text = some ts ∧ Reads bound ts e

/-- A text that reads as `e` wherever an operand may stand. -/
def TextStands (text : List Char) (e : Expr) : Prop := ∃ ts, lex text = some ts ∧ Stands ts e

variable {text left right w : List Char} {e a b : Expr} {bound bound' : Nat} {op : BinaryOp}
  {name path : String} {args : List (List Char × Expr)}

theorem TextStands.reads (h : TextStands text e) : TextReads primary text e := by
  obtain ⟨ts, hlex, h⟩ := h
  exact ⟨ts, hlex, h.reads⟩

theorem textStands_word (hw : IsWord w ∧ w ∉ operators) :
    TextStands w (.leaf (String.ofList w)) :=
  ⟨_, hw.1.lex, stands_word hw.2⟩

theorem textStands_literal {v : Literal} (h : IsScalar v) :
    TextStands v.render.toList (.leaf v.render) := by
  obtain ⟨hlex, hop⟩ := lex_render h
  have hs := stands_word hop
  rw [String.ofList_toList] at hs
  exact ⟨_, hlex, hs⟩

theorem textReads_binary (op : BinaryOp) (ha : TextReads bound left a) (hb : TextReads bound' right b)
    (hleft : level op ≤ bound) (hright : level op ≤ bound')
    (hequal : level op = bound' → op.isConnective = true) :
    TextReads (level op) (left ++ ' ' :: (op.symbol.toList ++ ' ' :: right)) (.join op a b) := by
  obtain ⟨ts, hts, ha⟩ := ha
  obtain ⟨us, hus, hb⟩ := hb
  exact ⟨_, lex_operator op hts hus, reads_binary ha hb hleft hright hequal⟩

theorem TextReads.stands_group (h : TextReads bound text e) :
    TextStands ('(' :: (text ++ [')'])) e := by
  obtain ⟨ts, hts, h⟩ := h
  exact ⟨_, lex_group hts, h.stands_group⟩

theorem textReads_not (h : TextReads bound text e) :
    TextReads primary ("not".toList ++ ' ' :: '(' :: (text ++ [')'])) (.not e) := by
  obtain ⟨ts, hts, h⟩ := h
  have hnot : lex "not".toList = some [.word "not".toList] := rfl
  refine ⟨_, lex_append hnot ?_ ?_, reads_not h⟩
  · simp
  · rw [lex_space]
    exact lex_group hts

/-- Texts between commas have their tokens between commas. -/
theorem exists_tokens (h : ∀ x ∈ args, ∃ bound, TextReads bound x.1 x.2) :
    ∃ tss : List (List Token × Expr), lex ([','].intercalate (args.map Prod.fst)) =
        some ([.comma].intercalate (tss.map Prod.fst)) ∧
      tss.map Prod.snd = args.map Prod.snd ∧ ∀ x ∈ tss, ∃ bound, Reads bound x.1 x.2 := by
  have htokens : ∃ tss : List (List Char × List Token × Expr),
      tss.map (fun t => (t.1, t.2.2)) = args ∧
      ∀ t ∈ tss, lex t.1 = some t.2.1 ∧ ∃ bound, Reads bound t.2.1 t.2.2 := by
    induction args with
    | nil => exact ⟨[], rfl, by simp⟩
    | cons x args ih =>
      obtain ⟨bound, ts, hts, hx⟩ := h x (List.mem_cons_self ..)
      obtain ⟨tss, rfl, htss⟩ := ih fun y hy => h y (List.mem_cons_of_mem _ hy)
      refine ⟨(x.1, ts, x.2) :: tss, rfl, fun t ht => ?_⟩
      rcases List.mem_cons.mp ht with rfl | ht
      · exact ⟨hts, bound, hx⟩
      · exact htss t ht
  obtain ⟨tss, rfl, htss⟩ := htokens
  refine ⟨tss.map Prod.snd, ?_, by simp, ?_⟩
  · have hlex := lex_commas (tss.map fun t => (t.1, t.2.1)) (by
      intro x hx
      obtain ⟨t, ht, rfl⟩ := List.mem_map.mp hx
      exact (htss t ht).1)
    simpa [Function.comp_def] using hlex
  · intro x hx
    obtain ⟨t, ht, rfl⟩ := List.mem_map.mp hx
    exact (htss t ht).2

theorem textStands_call (args : List (List Char × Expr))
    (hw : IsWord w ∧ w ∉ operators ∧ Opener.ofHead w = .call name)
    (hne : args ≠ []) (h : ∀ x ∈ args, ∃ bound, TextReads bound x.1 x.2) :
    TextStands (w ++ '(' :: ([','].intercalate (args.map Prod.fst) ++ [')']))
      (.call name (args.map Prod.snd)) := by
  obtain ⟨tss, hlex, hmap, htss⟩ := exists_tokens h
  rw [← hmap]
  refine ⟨_, hw.1.lex_call hw.2.1 hlex, stands_call hw.2.2 ?_ htss⟩
  rintro rfl
  exact hne (List.map_eq_nil_iff.mp hmap.symm)

theorem TextStands.isIn (args : List (List Char × Expr)) (hs : TextStands text e) (hne : args ≠ [])
    (h : ∀ x ∈ args, ∃ bound, TextReads bound x.1 x.2) :
    TextStands (text ++ ' ' :: ("in".toList ++ ' ' ::
        '(' :: ([','].intercalate (args.map Prod.fst) ++ [')'])))
      (.isIn e (args.map Prod.snd)) := by
  obtain ⟨ts, hts, hs⟩ := hs
  obtain ⟨tss, hlex, hmap, htss⟩ := exists_tokens h
  have htss_ne : tss ≠ [] := by
    rintro rfl
    exact hne (List.map_eq_nil_iff.mp hmap.symm)
  rw [← hmap]
  refine ⟨_, lex_append hts ?_ ?_, hs.isIn htss_ne htss⟩
  · simp
  · rw [lex_space]
    have hin : lex "in".toList = some [.word "in".toList] := rfl
    refine lex_append hin ?_ ?_
    · simp
    · rw [lex_space]
      exact lex_group hlex

theorem textStands_quantified {q : Quantifier} {x : List Char}
    (hw : IsWord w ∧ w ∉ operators ∧ Opener.ofHead w = .quantifier q path) (hx : IsName x)
    (h : TextReads bound text e) :
    TextStands (w ++ '(' :: (x ++ ':' :: ' ' :: (text ++ [')'])))
      (.quantified q path (some (String.ofList x, e))) := by
  obtain ⟨ts, hts, h⟩ := h
  have hend : lex (text ++ [')']) = some (ts ++ [.closing]) := lex_append hts (by simp) rfl
  refine ⟨_, ?_, stands_quantified hw.2.2 h⟩
  rw [hw.1.lex_head hw.2.1, hx.lex_binder, lex_space, hend]
  rfl

theorem textStands_quantified_empty {q : Quantifier}
    (hw : IsWord w ∧ w ∉ operators ∧ Opener.ofHead w = .quantifier q path) :
    TextStands (w ++ ['(', ')']) (.quantified q path none) := by
  refine ⟨_, ?_, stands_quantified_empty hw.2.2⟩
  rw [hw.1.lex_head hw.2.1]
  rfl

/-! ## The main statement -/

/-- What the text of a filter reads as; the text of a compact one also stands. -/
def TextSays (bound : Nat) (text : String) (f : Filter) : Prop :=
  TextReads bound text.toList (reading f) ∧ (IsCompact f → TextStands text.toList (reading f))

theorem TextStands.textSays {f : Filter} {text : String} (h : TextStands text.toList (reading f)) :
    TextSays primary text f := ⟨h.reads, fun _ => h⟩

theorem says_test {parent : Option BinaryOp} {receiver argument : Filter} {t : StringTest}
    {bound : Nat} {r u : String} (method : Method.ofName? name = some (.test t))
    (hr : TextSays bound r receiver) (hu : TextSays bound' u argument) :
    TextSays (boundOf parent (.call (some receiver) name [argument]))
      (t.word ++ "(" ++ r ++ "," ++ u ++ ")") (.call (some receiver) name [argument]) := by
  have hstands := textStands_call [(r.toList, reading receiver), (u.toList, reading argument)]
    (method_head.1 t) (by simp) (by simpa using ⟨⟨_, hr.1⟩, ⟨_, hu.1⟩⟩)
  refine TextStands.textSays ?_
  simpa [reading, method, List.intercalate_cons_cons] using hstands

theorem says_map {parent : Option BinaryOp} {target : Option Filter} {arguments : List Filter}
    {operand : Filter} {m : StringMap} {r : String} (method : Method.ofName? name = some (.map m))
    (single : HasOperand target arguments operand) (hr : TextSays bound r operand) :
    TextSays (boundOf parent (.call target name arguments)) (m.word ++ "(" ++ r ++ ")")
      (.call target name arguments) := by
  have hstands := textStands_call [(r.toList, reading operand)] (method_head.2 m) (by simp)
    (by simpa using ⟨_, hr.1⟩)
  refine TextStands.textSays ?_
  rcases single with ⟨rfl, rfl⟩ | ⟨rfl, rfl⟩
  · simpa [reading, method] using hstands
  · simpa [reading, method] using hstands

theorem says_isNullOrEmpty {parent : Option BinaryOp} {target : Option Filter}
    {arguments : List Filter} {operand : Filter} {r : String}
    (method : Method.ofName? name = some .isNullOrEmpty)
    (single : HasOperand target arguments operand) (hr : TextSays bound r operand)
    (binds : level .eq ≤ bound) :
    TextSays (boundOf parent (.call target name arguments))
      ("(" ++ r ++ " eq null or " ++ r ++ " eq '')") (.call target name arguments) := by
  have hnull : TextStands "null".toList (.leaf "null") := textStands_literal (v := .null) trivial
  have hempty : TextStands "''".toList (.leaf "''") := textStands_literal (v := .text "") trivial
  have hvalue : ∀ {v e}, TextStands v e → TextReads (level .eq)
      (r.toList ++ ' ' :: (BinaryOp.eq.symbol.toList ++ ' ' :: v)) (.join .eq (reading operand) e) :=
    fun hv => textReads_binary _ hr.1 hv.reads binds (by decide) (by decide)
  have hstands := (textReads_binary .or (hvalue hnull) (hvalue hempty) (by decide)
    (by decide) (by decide)).stands_group
  refine TextStands.textSays ?_
  rcases single with ⟨rfl, rfl⟩ | ⟨rfl, rfl⟩
  · simpa [reading, method, BinaryOp.symbol] using hstands
  · simpa [reading, method, BinaryOp.symbol] using hstands

theorem reading_isIn {receiver argument path : Filter} {items : List Literal}
    (method : Method.ofName? name = some .isIn) (has : HasItems receiver argument path items) :
    reading (.call (some receiver) name [argument]) = membership (reading path) items := by
  rcases has with ⟨hitems, rfl⟩ | ⟨hnone, hitems, rfl⟩
  · simp [reading, method, hitems]
  · simp [reading, method, hnone, hitems]

theorem says_isIn {parent : Option BinaryOp} {receiver argument path : Filter}
    {items : List Literal} {r : String} (method : Method.ofName? name = some .isIn)
    (has : HasItems receiver argument path items) (scalars : ∀ v ∈ items, IsScalar v)
    (nonempty : items ≠ []) (hr : TextStands r.toList (reading path)) :
    TextSays (boundOf parent (.call (some receiver) name [argument]))
      (compileNode.membership r items) (.call (some receiver) name [argument]) := by
  have hitems : ∀ x ∈ items.map fun v => (v.render.toList, Expr.leaf v.render),
      ∃ bound, TextReads bound x.1 x.2 := by
    intro x hx
    obtain ⟨v, hv, rfl⟩ := List.mem_map.mp hx
    exact ⟨_, (textStands_literal (scalars v hv)).reads⟩
  have hstands := hr.isIn _ (by simpa using nonempty) hitems
  refine TextStands.textSays ?_
  rw [reading_isIn method has, membership, if_neg (by simpa using nonempty),
    compileNode.membership]
  simpa [Function.comp_def, String.toList_intercalate] using hstands

theorem says_noItems {parent : Option BinaryOp} {receiver argument path : Filter}
    (method : Method.ofName? name = some .isIn) (has : HasItems receiver argument path []) :
    TextSays (boundOf parent (.call (some receiver) name [argument])) "false"
      (.call (some receiver) name [argument]) := by
  have hfalse : TextStands "false".toList (.leaf "false") :=
    textStands_literal (v := .bool false) trivial
  refine TextStands.textSays ?_
  rwa [reading_isIn method has]

theorem says_binary {parent : Option BinaryOp} {l r : Filter} {s t : String}
    (hl : TextSays (boundOf (some op) l) s l) (hr : TextSays (boundOf (some op) r) t r)
    (binds : Binds op l r) :
    TextSays (boundOf parent (.binary op l r)) (binaryText parent op s t) (.binary op l r) := by
  obtain ⟨hleft, hright, hequal⟩ := binds
  have hreads := textReads_binary _ hl.1 hr.1 hleft hright hequal
  refine ⟨?_, fun h => h.elim⟩
  rw [binaryText, boundOf, reading]
  split
  · simpa using hreads.stands_group.reads
  · simpa using hreads

/-- Whatever stands for a grouped filter says what the filter says. -/
theorem says_of_written {f : Filter} (h : Grouped f) {parent : Option BinaryOp}
    (w : Written scope parent f s) : TextSays (boundOf parent f) s f := by
  -- The hypotheses hold under every parent, which decides where parentheses stand.
  induction h generalizing scope parent s with
  | binary l r binds ihl ihr =>
    cases w with
    | binary wl wr => exact says_binary (ihl wl) (ihr wr) binds
  | not r ih =>
    cases w with
    | not w =>
      refine ⟨?_, fun h => h.elim⟩
      simpa [reading, boundOf] using textReads_not (ih w).1
  | member plain =>
    cases w with
    | member h =>
      obtain ⟨rfl, hne⟩ := compilePath_eq_ok h
      have hs := textStands_word (isWord_pathText plain hne)
      rw [String.ofList_toList] at hs
      exact TextStands.textSays (by rwa [reading])
  | literal scalar =>
    cases w
    exact TextStands.textSays (by simpa only [reading] using textStands_literal scalar)
  | captured scalar =>
    cases w
    exact TextStands.textSays (by simpa only [reading] using textStands_literal scalar)
  | @raw text e grammatical =>
    cases w
    obtain ⟨ts, hlex, hreads⟩ := reads_of_read? grammatical
    have hreading : reading (.raw text) = e := by rw [reading, grammatical, Option.getD_some]
    refine ⟨?_, fun h => h.elim⟩
    rw [hreading, boundOf]
    split
    · simpa using (TextReads.stands_group ⟨ts, hlex, hreads⟩).reads
    · exact ⟨ts, hlex, hreads⟩
  | quantified plain named grouped ih =>
    cases w with
    | nonempty h =>
      obtain ⟨rfl, hne⟩ := compilePath_eq_ok h
      refine TextStands.textSays ?_
      rw [reading]
      simpa using textStands_quantified_empty (quantifier_head _ plain hne)
    | quantified h hname w =>
      obtain ⟨rfl, hne⟩ := compilePath_eq_ok h
      refine TextStands.textSays ?_
      rw [reading]
      simpa using textStands_quantified (quantifier_head _ plain hne) (named _ rfl).1
        (ih _ rfl w).1
  | call method grouped binds ih =>
    cases w with
    | test hname fault wr wa =>
      exact says_test hname (ih _ (by simp) wr) (ih _ (by simp) wa)
    | map hname single fault w =>
      exact says_map hname single (ih _ single.mem w)
    | isNullOrEmpty hname single w =>
      exact says_isNullOrEmpty hname single (ih _ single.mem w) (binds hname _ single.mem)
    | noItems hname has => exact absurd hname method
    | isIn hname has nonempty w => exact absurd hname method
  | @isIn name receiver argument path items method has scalars grouped compact ih =>
    -- The rules for other methods ask for another name.
    cases w with
    | test hname => exact absurd (method.symm.trans hname) (by simp)
    | map hname => exact absurd (method.symm.trans hname) (by simp)
    | isNullOrEmpty hname => exact absurd (method.symm.trans hname) (by simp)
    | noItems hname has' =>
      exact says_noItems hname has'
    | isIn hname has' nonempty w =>
      obtain ⟨rfl, rfl⟩ := has.unique has'
      exact says_isIn hname has scalars nonempty ((ih nonempty w).2 (compact nonempty))

/-- The text of a grouped filter reads as what the filter says. -/
theorem read?_of_grouped {f : Filter} {s : String} (h : Grouped f) (hs : compile f = .ok s) :
    read? s.toList = some (reading f) := by
  have hfinds : Finds (compileNode [] none f) s := ⟨[], f.compileLogged.2, Prod.ext hs rfl⟩
  obtain ⟨ts, hlex, hreads⟩ := (says_of_written h (written_of_finds hfinds)).1
  exact read?_of_reads hlex hreads

end FilterText
end OData
