/-! # Cutting texts

Cuts at the first occurrence of a text, at every occurrence, at a character and
at line ends.  What the pieces lose is exactly what separates them, so a piece
after the first is shorter than the text it came from
(`length_lt_of_mem_tail_splitOn`).
-/
namespace OData
namespace Text

/-- The parts of `s` before and after the first occurrence of `sep`. -/
def cutAt? (sep : List Char) : List Char → Option (List Char × List Char)
  | [] => if sep.isEmpty then some ([], []) else none
  | c :: s =>
    if sep.isPrefixOf (c :: s) then some ([], (c :: s).drop sep.length)
    else (cutAt? sep s).map fun p => (c :: p.1, p.2)

theorem eq_append_of_cutAt? {sep s a b : List Char} (h : cutAt? sep s = some (a, b)) :
    s = a ++ sep ++ b := by
  induction s generalizing a b with
  | nil =>
    unfold cutAt? at h
    split at h
    · next hs =>
      simp only [Option.some.injEq, Prod.mk.injEq] at h
      rw [← h.1, ← h.2, List.isEmpty_iff.mp hs]
      rfl
    · simp at h
  | cons c s ih =>
    unfold cutAt? at h
    split at h
    · next hp =>
      simp only [Option.some.injEq, Prod.mk.injEq] at h
      rw [← h.1, ← h.2, List.nil_append]
      obtain ⟨t, ht⟩ := List.isPrefixOf_iff_prefix.mp hp
      rw [← ht, List.drop_left]
    · obtain ⟨⟨x, y⟩, hxy, he⟩ := Option.map_eq_some_iff.mp h
      simp only [Prod.mk.injEq] at he
      rw [← he.1, ← he.2, ih hxy]
      rfl

theorem length_of_cutAt? {sep s a b : List Char} (h : cutAt? sep s = some (a, b)) :
    s.length = a.length + sep.length + b.length := by
  rw [eq_append_of_cutAt? h, List.length_append, List.length_append]

/-- The pieces of `s` between the occurrences of the separator `c :: sep`,
taken from the left. -/
def splitOn (c : Char) (sep : List Char) (s : List Char) : List (List Char) :=
  match h : cutAt? (c :: sep) s with
  | none => [s]
  | some (a, b) =>
    have : b.length < s.length := by
      have := length_of_cutAt? h
      simp only [List.length_cons] at this
      omega
    a :: splitOn c sep b
termination_by s.length

theorem splitOn_eq_of_none {c : Char} {sep s : List Char} (h : cutAt? (c :: sep) s = none) :
    splitOn c sep s = [s] := by
  rw [splitOn]
  split
  · rfl
  · next h' => rw [h] at h'; cases h'

theorem splitOn_eq_of_some {c : Char} {sep s a b : List Char}
    (h : cutAt? (c :: sep) s = some (a, b)) : splitOn c sep s = a :: splitOn c sep b := by
  rw [splitOn]
  split
  · next h' => rw [h] at h'; cases h'
  · next h' =>
    rw [h] at h'
    simp only [Option.some.injEq, Prod.mk.injEq] at h'
    rw [h'.1, h'.2]

theorem length_le_of_mem_splitOn {c : Char} {sep s piece : List Char}
    (h : piece ∈ splitOn c sep s) : piece.length ≤ s.length := by
  fun_induction splitOn c sep s with
  | case1 s _ =>
    obtain rfl := List.mem_singleton.mp h
    exact Nat.le_refl _
  | case2 s a b hs _ ih =>
    have hl := length_of_cutAt? hs
    rcases List.mem_cons.mp h with h | h
    · rw [h]; omega
    · exact Nat.le_trans (ih h) (by omega)

/-- Every piece but the first stands after a separator, so it is shorter than
the whole text. -/
theorem length_lt_of_mem_tail_splitOn {c : Char} {sep s piece : List Char}
    (h : piece ∈ (splitOn c sep s).tail) : piece.length < s.length := by
  cases hs : cutAt? (c :: sep) s with
  | none => rw [splitOn_eq_of_none hs] at h; simp at h
  | some p =>
    obtain ⟨a, b⟩ := p
    rw [splitOn_eq_of_some hs, List.tail_cons] at h
    have hl := length_of_cutAt? hs
    simp only [List.length_cons] at hl
    exact Nat.lt_of_le_of_lt (length_le_of_mem_splitOn h) (by omega)

/-- The parts of `s` before and after the first character `c`. -/
def cutFirst? (c : Char) : List Char → Option (List Char × List Char)
  | [] => none
  | x :: s => if x = c then some ([], s) else (cutFirst? c s).map fun p => (x :: p.1, p.2)

/-- The parts of `s` before and after the last character `c`. -/
def cutLast? (c : Char) (s : List Char) : Option (List Char × List Char) :=
  (cutFirst? c s.reverse).map fun p => (p.2.reverse, p.1.reverse)

/-- A line without the carriage return that ends it. -/
def dropReturn (line : List Char) : List Char :=
  match line.reverse with
  | '\r' :: front => front.reverse
  | _ => line

/-- The lines of a text.  A line ends at a line feed, which may follow a
carriage return; a line feed at the end of the text starts no further line. -/
def lines (s : List Char) : List (List Char) :=
  go (s.splitOn '\n')
where
  /-- All pieces but the last ended at a line feed. -/
  go : List (List Char) → List (List Char)
    | [] => []
    | [last] => if last.isEmpty then [] else [last]
    | line :: rest => dropReturn line :: go rest

end Text
end OData
