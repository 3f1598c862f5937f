import OData.Proofs.Multipart.Pieces

/-! # Delimiters that begin other delimiters

The delimiter of a body is found wherever its text stands, so also where it only begins a
longer one: the delimiter of a body inside whose boundary goes on where the outer one ends.
That body is then cut when the one around it is.

A `Portion` is what stands behind a delimiter: a part, a body with portions of its own, or
what follows a closing delimiter.  `Portion.Kept` says when cutting at an outer delimiter
does no harm to a portion: the delimiter stands nowhere in it, or it begins the delimiters
of the body that the portion is.

`map_ofLeaf?_leaves` is the main statement.  The leaves of a body of such portions are read
as if every delimiter had been found in its own lines only.
-/
namespace OData

open Text

namespace Multipart

/-- What stands behind a delimiter. -/
inductive Portion where
  /-- A part that is no body. -/
  | part (newline : LineEnd) (text : List Char)
  /-- A head with its blank line, and a body under a boundary of its own. -/
  | group (newline : LineEnd) (opening boundary preamble : List Char) (portions : List Portion)
  /-- What stands behind the hyphens that close a body. -/
  | closing (text : List Char)

mutual

/-- The text of a portion, from the end of the delimiter on. -/
def Portion.text : Portion → List Char
  | .part newline text => newline.text ++ text
  | .group newline opening boundary preamble portions =>
    newline.text ++ (opening ++ (preamble ++ portionsText boundary portions))
  | .closing text => '-' :: '-' :: text
termination_by structural p => p

/-- The texts of portions, each behind a delimiter. -/
def portionsText (boundary : List Char) : List Portion → List Char
  | [] => []
  | p :: portions => delimiter boundary ++ (p.text ++ portionsText boundary portions)
termination_by structural portions => portions

end

mutual

/-- The leaves of a portion, in the order in which they stand there. -/
def Portion.leaves : Portion → List Leaf
  | .part _ text =>
    let (head, content) := splitHead (text.dropWhile isLineEnd)
    if allBlank content then [] else [⟨head, content⟩]
  | .group _ _ _ _ portions => portionsLeaves portions
  | .closing _ => []
termination_by structural p => p

/-- The leaves of portions. -/
def portionsLeaves : List Portion → List Leaf
  | [] => []
  | p :: portions => p.leaves ++ portionsLeaves portions
termination_by structural portions => portions

end

/-- Cutting at the delimiter of `outer` leaves the portion whole, or cuts it where a body in
it is cut anyway.  In front of the portion stands `x`, the rest of the delimiter. -/
inductive Portion.Kept (outer : List Char) : List Char → Portion → Prop
  | part {x text : List Char} {newline : LineEnd}
      (absent : ¬ delimiter outer <:+: x ++ (newline.text ++ text))
      (starts : x = [] ∨ StartsLine text) : Kept outer x (.part newline text)
  | apart {x opening boundary preamble : List Char} {newline : LineEnd} {portions : List Portion}
      (absent : ¬ delimiter outer <:+: x ++ (newline.text ++
        (opening ++ (preamble ++ portionsText boundary portions))))
      (starts : x = [] ∨ StartsLine opening) :
      Kept outer x (.group newline opening boundary preamble portions)
  | longer {x y opening preamble : List Char} {newline : LineEnd} {portions : List Portion}
      (absent : ¬ delimiter outer <:+: x ++ (newline.text ++ (opening ++ preamble)))
      (starts : x = [] ∨ StartsLine opening) (harmless : Harmless y)
      (kept : ∀ p ∈ portions, p.Kept outer y) :
      Kept outer x (.group newline opening (outer ++ y) preamble portions)
  | closing {x text : List Char} (absent : ¬ delimiter outer <:+: x ++ '-' :: '-' :: text)
      (quiet : x = [] ∨ allBlank (splitHead ('-' :: '-' :: text)).2 = true) :
      Kept outer x (.closing text)

/-- The delimiters of the body start lines, and no portion is harmed by cutting at them. -/
structure Laid (boundary preamble : List Char) (portions : List Portion) : Prop where
  absent : ¬ delimiter boundary <:+: preamble
  preamble : EndsLine preamble
  endsLine : ∀ p ∈ portions.dropLast, EndsLine p.text
  kept : ∀ p ∈ portions, p.Kept boundary []

/-- The bodies are those parts whose heads declare boundaries, and each is laid out. -/
inductive Portion.WellFormed : Portion → Prop
  | part {newline : LineEnd} {text : List Char}
      (single : innerBoundary? (splitHead (text.dropWhile isLineEnd)).1 = none) :
      WellFormed (.part newline text)
  | group {newline : LineEnd} {opening head boundary preamble : List Char}
      {portions : List Portion} (heads : Heads (opening.dropWhile isLineEnd) head)
      (declared : innerBoundary? head = some boundary) (laid : Laid boundary preamble portions)
      (wellFormed : ∀ p ∈ portions, p.WellFormed) :
      WellFormed (.group newline opening boundary preamble portions)
  | closing {text : List Char} : WellFormed (.closing text)

variable {boundary head opening outer preamble s x : List Char} {p : Portion}
  {portions : List Portion}

theorem portionsLeaves_eq_flatMap (portions : List Portion) :
    portionsLeaves portions = portions.flatMap Portion.leaves := by
  induction portions with
  | nil => rfl
  | cons p portions ih => rw [portionsLeaves, ih, List.flatMap_cons]

/-! ## Boundaries -/

theorem isBoundary_of_parameterAt? (h : parameterAt? s = some boundary) : IsBoundary boundary := by
  rw [parameterAt?] at h
  split at h
  · split at h
    · dsimp only at h
      split at h
      · cases h
      · next hnonempty =>
        cases h
        refine ⟨hnonempty, fun c hc => ?_⟩
        simpa [and_assoc] using List.all_eq_true.mp List.all_takeWhile c hc
    · cases h
  · cases h

/-- What a content type names is a boundary. -/
theorem isBoundary_of_boundary? (h : boundary? s = some boundary) : IsBoundary boundary := by
  induction s with
  | nil => cases h
  | cons c s ih =>
    rw [boundary?] at h
    split at h
    · next hparameter =>
      cases h
      exact isBoundary_of_parameterAt? hparameter
    · exact ih h

theorem isBoundary_of_innerBoundary? {head : List Char} (h : innerBoundary? head = some boundary) :
    IsBoundary boundary := by
  rw [innerBoundary?_eq, declaredBoundary?, Option.bind_eq_some_iff] at h
  obtain ⟨t, -, h⟩ := h
  split at h
  · exact isBoundary_of_boundary? h
  · cases h

theorem oneLine_of_isBoundary (h : IsBoundary (outer ++ x)) : OneLine x := by
  have hvisible : ∀ c ∈ x, isBlank c = false := fun c hc =>
    (h.plain c (List.mem_append_right _ hc)).2.2
  constructor
  · intro hmem
    cases hvisible _ hmem
  · intro hmem
    cases hvisible _ hmem

/-! ## Cutting -/

theorem Portion.text_ne_nil (p : Portion) : p.text ≠ [] := by
  cases p with
  | part newline => cases newline <;> simp [Portion.text, LineEnd.text, crlf]
  | group newline => cases newline <;> simp [Portion.text, LineEnd.text, crlf]
  | closing => simp [Portion.text]

theorem EndsLine.append_left {a b : List Char} (hb : b ≠ []) (h : EndsLine b) :
    EndsLine (a ++ b) := by
  intro c hc
  obtain ⟨d, hd⟩ := Option.ne_none_iff_exists'.mp (mt List.getLast?_eq_none_iff.mp hb)
  rw [List.getLast?_append, hd] at hc
  exact h c (hd ▸ hc)

/-- Cutting at a delimiter that begins those of the portions cuts in front of each of
them. -/
theorem splitOn_portionsText (plain : IsBoundary outer) (hs : EndsLine s)
    (hportions : ∀ p ∈ portions.dropLast, EndsLine p.text) :
    splitOn '-' ('-' :: outer) (s ++ portionsText (outer ++ x) portions) =
      splitOn '-' ('-' :: outer) s ++
        portions.flatMap fun p => splitOn '-' ('-' :: outer) (x ++ p.text) := by
  induction portions generalizing s with
  | nil => simp [portionsText]
  | cons p portions ih =>
    have hlast : ∀ c ∈ s.getLast?, c ∉ '-' :: '-' :: outer := by
      intro c hc
      rw [hs c hc]
      exact plain.not_mem_delimiter rfl
    have htext : s ++ portionsText (outer ++ x) (p :: portions) =
        s ++ ('-' :: '-' :: outer ++ ((x ++ p.text) ++ portionsText (outer ++ x) portions)) := by
      simp [portionsText, delimiter]
    have hrest : splitOn '-' ('-' :: outer) ((x ++ p.text) ++ portionsText (outer ++ x) portions) =
        splitOn '-' ('-' :: outer) (x ++ p.text) ++
          portions.flatMap fun p => splitOn '-' ('-' :: outer) (x ++ p.text) := by
      cases portions with
      | nil => simp [portionsText]
      | cons q portions =>
        rw [List.dropLast_cons_cons, List.forall_mem_cons] at hportions
        exact ih (hportions.1.append_left p.text_ne_nil) hportions.2
    rw [htext, splitOn_append hlast, hrest, List.flatMap_cons]

/-! ## Leaves -/

/-- What is read of the pieces into which a text falls at the delimiter of `outer`. -/
def piecesEntries (outer s : List Char) : List (Option BatchEntry) :=
  (splitOn '-' ('-' :: outer) s).flatMap pieceEntries

theorem piecesEntries_of_absent (absent : ¬ delimiter outer <:+: s) :
    piecesEntries outer s = pieceEntries s := by
  rw [piecesEntries, splitOn_eq_of_none (cutAt?_eq_none absent), List.flatMap_singleton]

theorem map_ofLeaf?_eq_flatMap (boundary body : List Char) :
    (leaves boundary body).map BatchEntry.ofLeaf? =
      (pieces boundary body).flatMap pieceEntries := by
  rw [leaves_eq_flatMap, List.map_flatMap]
  rfl

/-- Portions whose pieces are read as their leaves are read as all their leaves. -/
theorem flatMap_pieceEntries
    (h : ∀ p ∈ portions, piecesEntries outer (x ++ p.text) = p.leaves.map BatchEntry.ofLeaf?) :
    (portions.flatMap fun p => splitOn '-' ('-' :: outer) (x ++ p.text)).flatMap pieceEntries =
      (portionsLeaves portions).map BatchEntry.ofLeaf? := by
  rw [List.flatMap_assoc, portionsLeaves_eq_flatMap, List.map_flatMap, List.flatMap_def,
    List.flatMap_def, ← List.map_congr_left h]
  rfl

/-- The leaves of a body, from those of its portions. -/
theorem map_ofLeaf?_leaves_of (plain : IsBoundary boundary) (laid : Laid boundary preamble portions)
    (h : ∀ p ∈ portions, piecesEntries boundary p.text = p.leaves.map BatchEntry.ofLeaf?) :
    (leaves boundary (preamble ++ portionsText boundary portions)).map BatchEntry.ofLeaf? =
      (portionsLeaves portions).map BatchEntry.ofLeaf? := by
  have hcut := splitOn_portionsText (x := []) plain laid.preamble laid.endsLine
  rw [List.append_nil, splitOn_eq_of_none (cutAt?_eq_none laid.absent)] at hcut
  rw [map_ofLeaf?_eq_flatMap, pieces, hcut, List.singleton_append, List.tail_cons]
  exact flatMap_pieceEntries h

theorem Heads.splitHead_dropWhile (h : Heads (opening.dropWhile isLineEnd) head)
    (content : List Char) : splitHead ((opening ++ content).dropWhile isLineEnd) =
      (head, content) := by
  have hdrop : (opening ++ content).dropWhile isLineEnd =
      opening.dropWhile isLineEnd ++ content := by
    rw [List.dropWhile_append, if_neg (by simpa using h.ne_nil)]
  rw [hdrop, h.splitHead_append]

/-- A blank line is a line. -/
theorem Heads.endsLine (h : Heads (opening.dropWhile isLineEnd) head) : EndsLine opening := by
  have hlines : EndsLine (opening.dropWhile isLineEnd) := by
    rcases h.eq_append with hwide | hnarrow
    · rw [hwide]
      exact EndsLine.append_left (by simp) (by simp [EndsLine])
    · rw [hnarrow]
      exact EndsLine.append_left (by simp) (by simp [EndsLine])
  rw [← List.takeWhile_append_dropWhile (p := isLineEnd) (l := opening)]
  exact hlines.append_left h.ne_nil

/-- Each portion is read as its leaves, also when it is cut at an outer delimiter that begins
the one in front of it.  By induction on the portion, for every such delimiter. -/
theorem Portion.WellFormed.piecesEntries_eq (wf : p.WellFormed) (plain : IsBoundary outer)
    (line : OneLine x) (harmless : Harmless x) (kept : p.Kept outer x) :
    piecesEntries outer (x ++ p.text) = p.leaves.map BatchEntry.ofLeaf? := by
  induction wf generalizing outer x with
  | @part newline text single =>
    cases kept with
    | part absent starts =>
      rw [Portion.text, piecesEntries_of_absent absent, pieceEntries_line line harmless starts,
        partEntries, partLeaves, single]
      rfl
  | @group newline opening head boundary preamble portions heads declared laid _ ih =>
    have hplain := isBoundary_of_innerBoundary? declared
    have hopening (content : List Char) (h : x = [] ∨ StartsLine opening) :
        x = [] ∨ StartsLine (opening ++ content) :=
      h.imp_right fun h => h.append fun hnil => absurd (by simp [hnil]) heads.ne_nil
    cases kept with
    | apart absent starts =>
      rw [Portion.text, piecesEntries_of_absent absent,
        pieceEntries_line line harmless (hopening _ starts), heads.splitHead_dropWhile,
        partEntries, partLeaves, declared]
      exact map_ofLeaf?_leaves_of hplain laid fun p hp =>
        ih p hp hplain (by simp [OneLine]) harmless_nil (laid.kept p hp)
    | @longer _ y _ _ _ _ absent starts harmless' kept =>
      -- The head of the body is a piece, and the body itself falls into its portions.
      have htext : x ++ Portion.text (.group newline opening (outer ++ y) preamble portions) =
          (x ++ (newline.text ++ (opening ++ preamble))) ++ portionsText (outer ++ y) portions := by
        simp [Portion.text]
      have hne : opening ++ preamble ≠ [] := fun hnil =>
        heads.ne_nil (by rw [(List.append_eq_nil_iff.mp hnil).1]; rfl)
      have hends : EndsLine (x ++ (newline.text ++ (opening ++ preamble))) := by
        rw [← List.append_assoc]
        exact (heads.endsLine.append laid.preamble).append_left hne
      have hhead : pieceEntries (x ++ (newline.text ++ (opening ++ preamble))) = [] := by
        rw [pieceEntries_line line harmless (hopening _ starts), heads.splitHead_dropWhile,
          partEntries, partLeaves, declared]
        exact congrArg (List.map _) (leaves_eq_nil laid.absent)
      have hportions : ∀ p ∈ portions,
          piecesEntries outer (y ++ p.text) = p.leaves.map BatchEntry.ofLeaf? := fun p hp =>
        ih p hp plain (oneLine_of_isBoundary hplain) harmless' (kept p hp)
      rw [htext, piecesEntries, splitOn_portionsText plain hends laid.endsLine,
        splitOn_eq_of_none (cutAt?_eq_none absent), List.flatMap_append, List.flatMap_singleton,
        hhead, List.nil_append, flatMap_pieceEntries hportions]
      rfl
  | closing =>
    cases kept with
    | closing absent quiet =>
      rw [Portion.text, piecesEntries_of_absent absent, pieceEntries_closing line quiet]
      rfl

/-- **Delimiters that begin others are no obstacle.**  The leaves of a body are read as those
of its portions, to whatever depth bodies stand in bodies.  Each delimiter may stand elsewhere
as the beginning of the delimiters of bodies inside. -/
theorem map_ofLeaf?_leaves (plain : IsBoundary boundary) (laid : Laid boundary preamble portions)
    (wf : ∀ p ∈ portions, p.WellFormed) :
    (leaves boundary (preamble ++ portionsText boundary portions)).map BatchEntry.ofLeaf? =
      (portionsLeaves portions).map BatchEntry.ofLeaf? :=
  map_ofLeaf?_leaves_of plain laid fun p hp =>
    (wf p hp).piecesEntries_eq plain (by simp [OneLine]) harmless_nil (laid.kept p hp)

end Multipart
end OData
