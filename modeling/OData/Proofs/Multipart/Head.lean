import OData.Multipart
import OData.Proofs.Text.Cutting

/-! # Heads of messages

A message is a head of lines, an empty line and a body.  `messageText` writes one
with line ends of two characters; `splitHead_messageText` says that cutting at the
first blank line gives head and body back, whatever blank lines the body holds.
The lines of most heads are fields, and `Headers.ofBlock_fields` says which headers
a block of them stands for.
-/
namespace OData

open Text

/-- A header line: a name and, behind a colon, a value.  White space around either
means nothing. -/
structure Field where
  name : String
  value : String

namespace Field

/-- The line of a field. -/
def line (f : Field) : List Char := f.name.toList ++ ':' :: f.value.toList

/-- A field that is one line and whose name has no colon in it. -/
structure WellFormed (f : Field) : Prop where
  name : OneLine f.name.toList
  colon : ':' ∉ f.name.toList
  value : OneLine f.value.toList

instance (f : Field) : Decidable f.WellFormed :=
  decidable_of_iff (OneLine f.name.toList ∧ ':' ∉ f.name.toList ∧ OneLine f.value.toList)
    ⟨fun ⟨h1, h2, h3⟩ => ⟨h1, h2, h3⟩, fun ⟨h1, h2, h3⟩ => ⟨h1, h2, h3⟩⟩

theorem line_ne_nil (f : Field) : f.line ≠ [] := by simp [line]

theorem WellFormed.oneLine {f : Field} (h : f.WellFormed) : OneLine f.line := by
  constructor
  · simpa [line] using ⟨h.name.1, h.value.1⟩
  · simpa [line] using ⟨h.name.2, h.value.2⟩

/-- Lines of fields, as the other lemmas on lines ask for them. -/
theorem lines_oneLine {fs : List Field} (h : ∀ f ∈ fs, f.WellFormed) :
    ∀ l ∈ fs.map line, l ≠ [] ∧ OneLine l := by
  intro l hl
  obtain ⟨f, hf, rfl⟩ := List.mem_map.mp hl
  exact ⟨f.line_ne_nil, (h f hf).oneLine⟩

theorem lines_unbroken {fs : List Field} (h : ∀ f ∈ fs, f.WellFormed) :
    ∀ l ∈ fs.map line, l ≠ [] ∧ '\n' ∉ l := fun l hl =>
  (lines_oneLine h l hl).imp_right And.right

end Field

namespace Headers

/-- The headers that fields stand for: names in lower case, and of several fields
with one name the last. -/
def ofFields (fs : List Field) : Headers :=
  NameMap.ofList (fs.map fun f => (lowercased (trimmed f.name), trimmed f.value))

theorem get?_ofFields_concat (fs : List Field) (f : Field) (name : String) :
    (ofFields (fs ++ [f])).get? name =
      if name = lowercased (trimmed f.name) then some (trimmed f.value)
      else (ofFields fs).get? name := by
  have hinsert : ofFields (fs ++ [f]) =
      (ofFields fs).insert (lowercased (trimmed f.name)) (trimmed f.value) := by
    simp [ofFields, NameMap.ofList, NameMap.insert, Entries.ofList, List.foldl_append]
  rw [hinsert, NameMap.get?_insert]

theorem ofLine?_line {f : Field} (h : f.WellFormed) :
    ofLine? f.line = some (lowercased (trimmed f.name), trimmed f.value) := by
  rw [ofLine?, Field.line, cutFirst?_joint h.colon]
  simp [lowercased, trimmed]

/-- A block of fields reads as their headers. -/
theorem ofBlock_fields {fs : List Field} (h : ∀ f ∈ fs, f.WellFormed) :
    ofBlock (joinLines (fs.map Field.line)) = ofFields fs := by
  rw [ofBlock, lines_joinLines (Field.lines_unbroken h), ofFields, List.filterMap_map]
  congr 1
  induction fs with
  | nil => rfl
  | cons f fs ih =>
    have hf : (ofLine? ∘ Field.line) f = some (lowercased (trimmed f.name), trimmed f.value) :=
      ofLine?_line (h f (List.mem_cons_self ..))
    rw [List.filterMap_cons_some hf, List.map_cons, ih fun g hg => h g (List.mem_cons_of_mem _ hg)]

end Headers

namespace Multipart

/-! ## Blank lines -/

/-- The text of a head of lines, an empty line and a body. -/
def messageText (ls : List (List Char)) (body : List Char) : List Char :=
  ls.flatMap (· ++ crlf) ++ (crlf ++ body)

theorem messageText_eq {ls : List (List Char)} (h : ls ≠ []) (body : List Char) :
    messageText ls body = joinLines ls ++ (crlf ++ crlf ++ body) := by
  rw [messageText, flatMap_crlf h]
  simp

theorem exists_joinLines_eq_cons {ls : List (List Char)} (hne : ls ≠ [])
    (h : ∀ l ∈ ls, l ≠ [] ∧ OneLine l) :
    ∃ x t, joinLines ls = x :: t ∧ x ≠ '\r' ∧ x ≠ '\n' := by
  cases ls with
  | nil => exact absurd rfl hne
  | cons l ls =>
    obtain ⟨hl, hr, hn⟩ := h l (List.mem_cons_self ..)
    cases l with
    | nil => exact absurd rfl hl
    | cons x l =>
      rw [List.mem_cons, not_or] at hr hn
      refine ⟨x, ?_⟩
      cases ls with
      | nil => exact ⟨l, by simp, Ne.symm hr.1, Ne.symm hn.1⟩
      | cons m ls => exact ⟨_, joinLines_cons_cons _ _ _, Ne.symm hr.1, Ne.symm hn.1⟩

/-- A line end starts nowhere in a text without line feeds that no line feed follows. -/
theorem skips_unbroken {l rest sep : List Char} (h : '\n' ∉ l) (hrest : ¬ ['\n'] <+: rest) :
    Skips ('\r' :: '\n' :: sep) l rest := by
  induction l with
  | nil => exact skips_nil _ _
  | cons c l ih =>
    rw [List.mem_cons, not_or] at h
    refine skips_cons.mpr ⟨fun hp => ?_, ih h.2⟩
    have hfeed : ['\n'] <+: l ++ rest :=
      (List.prefix_append ['\n'] sep).trans (List.cons_prefix_cons.mp hp).2
    cases l with
    | nil => exact hrest hfeed
    | cons x l => exact h.2 ((List.cons_prefix_cons.mp hfeed).1 ▸ List.mem_cons_self ..)

/-- No line is empty, so no line end stands in front of joined lines. -/
theorem not_prefix_joinLines {ls : List (List Char)} {rest : List Char} (hne : ls ≠ [])
    (h : ∀ l ∈ ls, l ≠ [] ∧ '\n' ∉ l) (hrest : ¬ ['\n'] <+: rest) :
    ¬ ['\r', '\n'] <+: joinLines ls ++ rest ∧ ¬ ['\n'] <+: joinLines ls ++ rest := by
  obtain ⟨l, ls, rfl⟩ := List.exists_cons_of_ne_nil hne
  obtain ⟨hl, hfeed⟩ := h l (List.mem_cons_self ..)
  -- What follows the first line does not start with a line feed.
  obtain ⟨tail, htail, hjoin⟩ : ∃ tail, ¬ ['\n'] <+: tail ∧
      joinLines (l :: ls) ++ rest = l ++ tail := by
    cases ls with
    | nil => exact ⟨rest, hrest, by rw [joinLines_singleton]⟩
    | cons m ls =>
      refine ⟨crlf ++ joinLines (m :: ls) ++ rest, by simp [crlf], ?_⟩
      rw [joinLines_cons_cons, List.append_assoc, List.append_assoc]
  have hskips : Skips ['\r', '\n'] l tail := skips_unbroken hfeed htail
  obtain ⟨x, l, rfl⟩ := List.exists_cons_of_ne_nil hl
  rw [hjoin]
  refine ⟨(skips_cons.mp hskips).1, fun hp => ?_⟩
  rw [List.mem_cons, not_or] at hfeed
  exact hfeed.1 (List.cons_prefix_cons.mp hp).1

/-- A blank line starts nowhere inside joined lines: not in a line, which has no line
feed, and not at a line end, for no line is empty. -/
theorem skips_joinLines {ls : List (List Char)} {rest : List Char}
    (h : ∀ l ∈ ls, l ≠ [] ∧ '\n' ∉ l) (hrest : ¬ ['\n'] <+: rest) :
    Skips ['\r', '\n', '\r', '\n'] (joinLines ls) rest ∧ Skips ['\n', '\n'] (joinLines ls) rest := by
  induction ls with
  | nil => exact ⟨skips_nil _ _, skips_nil _ _⟩
  | cons l ls ih =>
    obtain ⟨-, hfeed⟩ := h l (List.mem_cons_self ..)
    have hls : ∀ m ∈ ls, m ≠ [] ∧ '\n' ∉ m := fun m hm => h m (List.mem_cons_of_mem _ hm)
    cases ls with
    | nil =>
      rw [joinLines_singleton]
      exact ⟨skips_unbroken hfeed hrest, skips_of_not_mem hfeed⟩
    | cons m ls =>
      obtain ⟨hwide, hnarrow⟩ := ih hls
      obtain ⟨hend, hblank⟩ := not_prefix_joinLines (by simp) hls hrest
      rw [joinLines_cons_cons, skips_append, skips_append, skips_append, skips_append, crlf,
        skips_cons, skips_cons, skips_cons, skips_cons]
      refine ⟨⟨skips_unbroken hfeed (by simp), ⟨?_, by simp, skips_nil _ _⟩, hwide⟩,
        skips_of_not_mem hfeed, ⟨by simp, ?_, skips_nil _ _⟩, hnarrow⟩
      · simpa using hend
      · simpa using hblank

theorem splitHead_of_first {s : List Char} (hr : ¬ ['\r', '\n'] <+: s) (hn : ¬ ['\n'] <+: s) :
    splitHead s =
      match cutAt? ['\r', '\n', '\r', '\n'] s, cutAt? ['\n', '\n'] s with
      | some a, some b => if a.1.length ≤ b.1.length then a else b
      | some a, none => a
      | none, some b => b
      | none, none => (s, []) := by
  rw [splitHead.eq_def]
  split
  · exact absurd (by simp) hr
  · exact absurd (by simp) hn
  · rfl

/-- Cutting a message at its first blank line gives its head and its body. -/
theorem splitHead_messageText {ls : List (List Char)} (h : ∀ l ∈ ls, l ≠ [] ∧ '\n' ∉ l)
    (body : List Char) : splitHead (messageText ls body) = (joinLines ls, body) := by
  by_cases hls : ls = []
  · subst hls
    rfl
  · have hrest : ¬ ['\n'] <+: crlf ++ crlf ++ body := by simp [crlf]
    obtain ⟨hskips, hskips'⟩ := skips_joinLines h hrest
    obtain ⟨hr, hn⟩ := not_prefix_joinLines hls h hrest
    rw [← messageText_eq hls] at hr hn
    -- The blank line behind the head is the first of its kind.
    have hwide : cutAt? ['\r', '\n', '\r', '\n'] (messageText ls body) =
        some (joinLines ls, body) := by
      rw [messageText_eq hls]
      exact cutAt?_joint hskips
    -- One without carriage returns can only come later, so it is not the one cut at.
    have hnarrow : ∀ a ∈ cutAt? ['\n', '\n'] (messageText ls body),
        (joinLines ls).length ≤ a.1.length := by
      intro a ha
      rw [messageText_eq hls, cutAt?_of_skips hskips'] at ha
      obtain ⟨p, _, rfl⟩ := Option.map_eq_some_iff.mp ha
      simp
    rw [splitHead_of_first hr hn, hwide]
    cases hb : cutAt? ['\n', '\n'] (messageText ls body) with
    | none => rfl
    | some b => simp [hnarrow b hb]

/-- The headers and the body of a message whose head is fields. -/
theorem splitHead_fields {fs : List Field} (h : ∀ f ∈ fs, f.WellFormed) (body : List Char) :
    splitHead (messageText (fs.map Field.line) body) = (joinLines (fs.map Field.line), body) :=
  splitHead_messageText (Field.lines_unbroken h) body

end Multipart
end OData
