import OData.Batch.Response
import OData.Proofs.Json.Normal
import OData.Proofs.Multipart.Disjoint

/-! # Pieces behind delimiters

A piece of a body starts behind a delimiter with a line end.  It starts with more if the
delimiter is only the beginning of the one that stands there: with what is missing from that
one, and then the line end.  The rest of the delimiter is read as the first line of the head.
`pieceEntries_line` says that it does no harm there, if it does not start as a closing
delimiter goes on and is no header that counts (`Harmless`).
-/
namespace OData

open Text

namespace Multipart

/-! ## Heads -/

/-- What ends a line. -/
inductive LineEnd where
  | crlf
  | lf
  deriving DecidableEq

/-- The characters of a line end. -/
def LineEnd.text : LineEnd → List Char
  | crlf => Text.crlf
  | lf => ['\n']

/-- The text does not start with a line end. -/
def StartsLine (s : List Char) : Prop := ∀ c ∈ s.head?, isLineEnd c = false

instance (s : List Char) : Decidable (StartsLine s) := inferInstanceAs (Decidable (∀ c ∈ _, _))

/-- The text `opening` is the lines `head` with the blank line behind them. -/
structure Heads (opening head : List Char) : Prop where
  starts : StartsLine opening
  cut : splitHead opening = (head, [])
  blank : head ≠ opening

instance (opening head : List Char) : Decidable (Heads opening head) :=
  decidable_of_iff (StartsLine opening ∧ splitHead opening = (head, []) ∧ head ≠ opening)
    ⟨fun ⟨h1, h2, h3⟩ => ⟨h1, h2, h3⟩, fun ⟨h1, h2, h3⟩ => ⟨h1, h2, h3⟩⟩

variable {opening head content piece rest s t x y outer boundary preamble : List Char}

theorem StartsLine.not_prefix (h : StartsLine s) {c : Char} (hc : isLineEnd c = true)
    (sep : List Char) : ¬ c :: sep <+: s := by
  rintro ⟨rest, rfl⟩
  rw [h c rfl] at hc
  cases hc

theorem StartsLine.splitHead_eq (h : StartsLine s) :
    splitHead s =
      match cutAt? ['\r', '\n', '\r', '\n'] s, cutAt? ['\n', '\n'] s with
      | some a, some b => if a.1.length ≤ b.1.length then a else b
      | some a, none => a
      | none, some b => b
      | none, none => (s, []) :=
  splitHead_of_first (h.not_prefix rfl _) (h.not_prefix rfl _)

theorem StartsLine.append (h : StartsLine s) (ht : s = [] → StartsLine t) :
    StartsLine (s ++ t) := by
  cases s with
  | nil => exact ht rfl
  | cons c s => exact h

theorem StartsLine.dropWhile_eq_self (h : StartsLine s) : s.dropWhile isLineEnd = s := by
  cases s with
  | nil => rfl
  | cons c s => exact List.dropWhile_cons_of_neg (by simp [h c rfl])

theorem Heads.ne_nil (h : Heads opening head) : opening ≠ [] := by
  rintro rfl
  exact h.blank (congrArg Prod.fst h.cut).symm

theorem Heads.eq_append (h : Heads opening head) :
    opening = head ++ ['\r', '\n', '\r', '\n'] ∨ opening = head ++ ['\n', '\n'] := by
  have hcut := h.cut
  have happend {sep : List Char} (h : cutAt? sep opening = some (head, [])) :
      opening = head ++ sep := by simpa using eq_append_of_cutAt? h
  rw [h.starts.splitHead_eq] at hcut
  split at hcut
  · next hwide hnarrow =>
    split at hcut
    · exact .inl (happend (hcut ▸ hwide))
    · exact .inr (happend (hcut ▸ hnarrow))
  · next hwide _ => exact .inl (happend (hcut ▸ hwide))
  · next hnarrow => exact .inr (happend (hcut ▸ hnarrow))
  · cases hcut
    exact absurd rfl h.blank

/-- No blank line of line feeds alone stands further in front if more follows a head. -/
theorem le_length_of_cutAt? {a a' : List Char}
    (hwide : cutAt? ['\r', '\n', '\r', '\n'] opening = some (head, []))
    (hnarrow : cutAt? ['\n', '\n'] opening = none)
    (h : cutAt? ['\n', '\n'] (opening ++ rest) = some (a, a')) : head.length ≤ a.length := by
  have hbehind := length_lt_of_cutAt?_append hnarrow h
  have hlength := length_of_cutAt? hwide
  simp only [List.length_cons, List.length_nil] at hbehind hlength
  omega

/-- No blank line with carriage returns stands there either: it would start with a line
feed or go on with two of them. -/
theorem lt_length_of_cutAt? {a a' : List Char}
    (hnarrow : cutAt? ['\n', '\n'] opening = some (head, []))
    (hwide : cutAt? ['\r', '\n', '\r', '\n'] opening = none)
    (h : cutAt? ['\r', '\n', '\r', '\n'] (opening ++ rest) = some (a, a')) :
    head.length < a.length := by
  have hbehind := length_lt_of_cutAt?_append hwide h
  have hsame : head ++ '\n' :: '\n' :: rest = a ++ '\r' :: '\n' :: '\r' :: '\n' :: a' := by
    simpa [eq_append_of_cutAt? hnarrow] using eq_append_of_cutAt? h
  rw [← Nat.not_le]
  intro hle
  obtain ⟨u, rfl⟩ : a <+: head :=
    List.prefix_of_prefix_length_le (hsame ▸ List.prefix_append a _) (List.prefix_append head _) hle
  rw [length_of_cutAt? hnarrow] at hbehind
  simp only [List.length_append, List.length_cons, List.length_nil] at hbehind
  rw [List.append_assoc, List.append_cancel_left_eq] at hsame
  rcases u with _ | ⟨c, _ | ⟨d, u⟩⟩
  · cases hsame
  · cases hsame
  · simp only [List.length_cons] at hbehind
    omega

/-- A head is the same whatever stands behind its blank line. -/
theorem Heads.splitHead_append (h : Heads opening head) (rest : List Char) :
    splitHead (opening ++ rest) = (head, rest) := by
  have hcut := h.cut
  rw [h.starts.splitHead_eq] at hcut
  rw [(h.starts.append fun hnil => absurd hnil h.ne_nil).splitHead_eq]
  cases hwide : cutAt? ['\r', '\n', '\r', '\n'] opening <;>
    cases hnarrow : cutAt? ['\n', '\n'] opening <;> simp only [hwide, hnarrow] at hcut
  case none.none =>
    cases hcut
    exact absurd rfl h.blank
  case none.some b =>
    subst hcut
    rw [cutAt?_append hnarrow]
    cases hlater : cutAt? ['\r', '\n', '\r', '\n'] (opening ++ rest) with
    | none => rfl
    | some a => exact if_neg (Nat.not_le.mpr (lt_length_of_cutAt? hnarrow hwide hlater))
  case some.none a =>
    subst hcut
    rw [cutAt?_append hwide]
    cases hlater : cutAt? ['\n', '\n'] (opening ++ rest) with
    | none => rfl
    | some b => exact if_pos (le_length_of_cutAt? hwide hnarrow hlater)
  case some.some a b =>
    rw [cutAt?_append hwide, cutAt?_append hnarrow]
    dsimp only
    split at hcut
    · next hle =>
      subst hcut
      exact if_pos hle
    · next hle =>
      subst hcut
      exact if_neg hle

/-- The head of a text starts with all in front of it in which no blank line starts. -/
theorem splitHead_append_of_skips {a : List Char} (ha : StartsLine a) (hs : StartsLine s)
    (wide : Skips ['\r', '\n', '\r', '\n'] a s) (narrow : Skips ['\n', '\n'] a s) :
    splitHead (a ++ s) = (a ++ (splitHead s).1, (splitHead s).2) := by
  rw [(ha.append fun _ => hs).splitHead_eq, hs.splitHead_eq, cutAt?_of_skips wide,
    cutAt?_of_skips narrow]
  cases cutAt? ['\r', '\n', '\r', '\n'] s with
  | none => cases cutAt? ['\n', '\n'] s <;> rfl
  | some a =>
    cases cutAt? ['\n', '\n'] s with
    | none => rfl
    | some b =>
      simp only [Option.map_some, List.length_append, Nat.add_le_add_iff_left]
      split <;> rfl

theorem startsLine_of_oneLine (h : OneLine s) : StartsLine s := by
  intro c hc
  have hmem : c ∈ s := List.mem_of_mem_head? hc
  have hreturn : c ≠ '\r' := fun heq => h.1 (heq ▸ hmem)
  have hfeed : c ≠ '\n' := fun heq => h.2 (heq ▸ hmem)
  simp [isLineEnd, hreturn, hfeed]

/-- A line in front of a text is a line of its head. -/
theorem splitHead_line (hx : x ≠ []) (line : OneLine x) (e : LineEnd) (hs : StartsLine s) :
    splitHead (x ++ (e.text ++ s)) = (x ++ (e.text ++ (splitHead s).1), (splitHead s).2) := by
  have hskips : Skips ['\r', '\n', '\r', '\n'] e.text s ∧ Skips ['\n', '\n'] e.text s := by
    have hreturn := hs.not_prefix (c := '\r') rfl ['\n']
    have hfeed := hs.not_prefix (c := '\n') rfl []
    cases e with
    | crlf =>
      rw [LineEnd.text, crlf, skips_cons, skips_cons, skips_cons, skips_cons]
      exact ⟨⟨by simpa using hreturn, by simp, skips_nil _ _⟩, by simp, by simpa using hfeed,
        skips_nil _ _⟩
    | lf =>
      rw [LineEnd.text, skips_cons, skips_cons]
      exact ⟨⟨by simp, skips_nil _ _⟩, by simpa using hfeed, skips_nil _ _⟩
  have hstarts : StartsLine (x ++ e.text) :=
    (startsLine_of_oneLine line).append fun hnil => absurd hnil hx
  have hsplit := splitHead_append_of_skips hstarts hs
    (skips_append.mpr ⟨skips_of_not_mem line.1, hskips.1⟩)
    (skips_append.mpr ⟨skips_of_not_mem line.2, hskips.2⟩)
  simpa only [List.append_assoc] using hsplit

theorem lines_line (line : OneLine x) (e : LineEnd) (s : List Char) :
    lines (x ++ (e.text ++ s)) = x :: lines s := by
  have hgo : ∀ l, lines.go (l :: s.splitOn '\n') = dropReturn l :: lines s := by
    intro l
    rw [lines]
    cases hrest : s.splitOn '\n' with
    | nil => exact absurd hrest (List.splitOn_ne_nil _ _)
    | cons m ls => rfl
  cases e with
  | crlf =>
    have htext : x ++ (LineEnd.crlf.text ++ s) = (x ++ ['\r']) ++ '\n' :: s := by
      simp [LineEnd.text, crlf]
    have hfeed : '\n' ∉ x ++ ['\r'] := by simpa using line.2
    rw [htext, lines, List.splitOn_append_cons_self_of_not_mem hfeed, hgo, dropReturn_concat]
  | lf =>
    have htext : x ++ (LineEnd.lf.text ++ s) = x ++ '\n' :: s := rfl
    rw [htext, lines, List.splitOn_append_cons_self_of_not_mem line.2, hgo,
      dropReturn_eq_self line.1]

/-- A line that is no header of a name does not count for that name. -/
theorem get?_ofBlock_line {name : String} (line : OneLine x)
    (unread : ∀ field ∈ Headers.ofLine? x, field.1 ≠ name) (e : LineEnd) (head : List Char) :
    (Headers.ofBlock (x ++ (e.text ++ head))).get? name = (Headers.ofBlock head).get? name := by
  rw [Headers.ofBlock, Headers.ofBlock, lines_line line]
  cases hline : Headers.ofLine? x with
  | none => rw [List.filterMap_cons_none hline]
  | some field =>
    have hne : name ≠ field.1 := Ne.symm (unread field hline)
    rw [List.filterMap_cons_some hline]
    change Entries.get? name (Entries.ofList _) = Entries.get? name (Entries.ofList _)
    rw [Entries.get?_ofList, Entries.get?_ofList, List.reverse_cons, Entries.get?_append,
      Entries.get?_cons, if_neg hne, Entries.get?_nil, Option.or_none]

/-! ## Pieces -/

/-- The leaves of a part with this head and this content. -/
def partLeaves (head content : List Char) : List Leaf :=
  match innerBoundary? head with
  | some boundary => leaves boundary content
  | none => if allBlank content then [] else [⟨head, content⟩]

/-- The entries of a part with this head and this content. -/
def partEntries (head content : List Char) : List (Option BatchEntry) :=
  (partLeaves head content).map BatchEntry.ofLeaf?

/-- The entries of a piece. -/
def pieceEntries (piece : List Char) : List (Option BatchEntry) :=
  (Part.ofPiece piece).leaves.map BatchEntry.ofLeaf?

/-- A body in which the delimiter does not occur has no leaves. -/
theorem leaves_eq_nil (absent : ¬ delimiter boundary <:+: content) :
    leaves boundary content = [] := by
  rw [leaves_eq_flatMap, pieces, splitOn_eq_of_none (cutAt?_eq_none absent)]
  rfl

/-- Nothing comes of a part whose content is white space, whatever its head says. -/
theorem partLeaves_of_allBlank (head : List Char) (blank : allBlank content = true) :
    partLeaves head content = [] := by
  rw [partLeaves]
  split
  · refine leaves_eq_nil fun hwithin => ?_
    have hmem : '-' ∈ content := hwithin.subset (List.mem_cons_self ..)
    cases List.all_eq_true.mp blank _ hmem
  · exact if_pos blank

theorem pieceEntries_eq (opens : ¬ ['-', '-'] <+: piece)
    (hsplit : splitHead (piece.dropWhile isLineEnd) = (head, content)) :
    pieceEntries piece = partEntries head content := by
  refine congrArg (List.map BatchEntry.ofLeaf?) ?_
  rw [Part.ofPiece, if_neg (fun h => opens (List.isPrefixOf_iff_prefix.mp h))]
  dsimp only
  split
  · next hblank =>
    have hsuffix : content <:+ piece.dropWhile isLineEnd := by
      have h := splitHead_suffix (piece.dropWhile isLineEnd)
      rwa [hsplit] at h
    refine (partLeaves_of_allBlank head (List.all_eq_true.mpr fun c hc => ?_)).symm
    exact List.all_eq_true.mp hblank c (hsuffix.subset hc)
  · rw [hsplit, partLeaves]
    cases innerBoundary? head with
    | some boundary => rfl
    | none =>
      dsimp only
      split <;> rfl

/-- What is read from a part depends on two of its headers alone. -/
theorem partEntries_congr {head' : List Char}
    (type : (Headers.ofBlock head).get? "content-type" =
      (Headers.ofBlock head').get? "content-type")
    (id : (Headers.ofBlock head).get? "content-id" = (Headers.ofBlock head').get? "content-id")
    (content : List Char) : partEntries head content = partEntries head' content := by
  have hleaf : BatchEntry.ofLeaf? ⟨head, content⟩ = BatchEntry.ofLeaf? ⟨head', content⟩ := by
    simp only [BatchEntry.ofLeaf?, id]
  rw [partEntries, partEntries, partLeaves, partLeaves, innerBoundary?_eq, innerBoundary?_eq,
    declaredBoundary?, declaredBoundary?, type]
  split
  · rfl
  · split
    · rfl
    · rw [List.map_singleton, List.map_singleton, hleaf]

/-- What a longer delimiter may have more than the one that it starts with. -/
structure Harmless (x : List Char) : Prop where
  opens : ¬ ['-', '-'] <+: x
  unread : ∀ field ∈ Headers.ofLine? x, field.1 ≠ "content-type" ∧ field.1 ≠ "content-id"

theorem harmless_nil : Harmless [] := ⟨by simp, by simp [Headers.ofLine?, cutFirst?]⟩

theorem Harmless.not_prefix_append (harmless : Harmless x) (e : LineEnd) (s : List Char) :
    ¬ ['-', '-'] <+: x ++ (e.text ++ s) := by
  have hend : ¬ ['-'] <+: e.text ++ s := by cases e <;> simp [LineEnd.text, crlf]
  intro hprefix
  rcases x with _ | ⟨c, _ | ⟨d, x⟩⟩
  · exact hend ((List.prefix_append ['-'] ['-']).trans hprefix)
  · exact hend (List.cons_prefix_cons.mp hprefix).2
  · refine harmless.opens (List.prefix_of_prefix_length_le hprefix (List.prefix_append _ _) ?_)
    simp

/-- **A piece behind a delimiter is read by its head**, also if the delimiter was only the
beginning of the one that stands there. -/
theorem pieceEntries_line (line : OneLine x) (harmless : Harmless x)
    (starts : x = [] ∨ StartsLine s) (e : LineEnd) :
    pieceEntries (x ++ (e.text ++ s)) =
      partEntries (splitHead (s.dropWhile isLineEnd)).1 (splitHead (s.dropWhile isLineEnd)).2 := by
  have hopens := harmless.not_prefix_append e s
  by_cases hx : x = []
  · subst hx
    have hdrop : (e.text ++ s).dropWhile isLineEnd = s.dropWhile isLineEnd := by cases e <;> rfl
    exact pieceEntries_eq hopens (congrArg splitHead hdrop)
  · -- The rest of the delimiter is one line more of the head.
    have hs := starts.resolve_left hx
    have hstarts : StartsLine (x ++ (e.text ++ s)) :=
      (startsLine_of_oneLine line).append fun hnil => absurd hnil hx
    rw [pieceEntries_eq hopens (by rw [hstarts.dropWhile_eq_self, splitHead_line hx line e hs]),
      hs.dropWhile_eq_self]
    refine partEntries_congr ?_ ?_ _
    · exact get?_ofBlock_line line (fun field h => (harmless.unread field h).1) e _
    · exact get?_ofBlock_line line (fun field h => (harmless.unread field h).2) e _

/-- Behind a closing delimiter nothing is read, unless something stands behind a blank
line. -/
theorem pieceEntries_closing (line : OneLine x)
    (quiet : x = [] ∨ allBlank (splitHead ('-' :: '-' :: s)).2 = true) :
    pieceEntries (x ++ '-' :: '-' :: s) = [] := by
  by_cases hopens : ['-', '-'] <+: x ++ '-' :: '-' :: s
  · rw [pieceEntries, Part.ofPiece, if_pos (List.isPrefixOf_iff_prefix.mpr hopens)]
    rfl
  · have hquiet := quiet.resolve_left fun hx => hopens (by simp [hx])
    have hclosing : StartsLine ('-' :: '-' :: s) := fun c hc => Option.mem_some.mp hc ▸ rfl
    have hstarts : StartsLine (x ++ '-' :: '-' :: s) :=
      (startsLine_of_oneLine line).append fun _ => hclosing
    have hsplit := splitHead_append_of_skips (startsLine_of_oneLine line) hclosing
      (skips_of_not_mem line.1) (skips_of_not_mem line.2)
    rw [pieceEntries_eq hopens (by rw [hstarts.dropWhile_eq_self, hsplit]), partEntries,
      partLeaves_of_allBlank _ hquiet, List.map_nil]

end Multipart
end OData
