import OData.Json.Reader
import OData.Json.Writer
import OData.Proofs.Json.Numbers

/-! # Reading what was written

The compact text of a value gives the value back, if it can.  A double is written with
the fewest digits that its nearest double needs, while the reader may miss the nearest
double, so some doubles are read back as their neighbours; and integers of more than 64
bits are read as doubles.  `Legible` says which values come back, and how deep they may
be.

A reader takes what it needs and leaves the rest, so each lemma is about a text with
something behind it.  Only a number can go on in what follows; `Ends` rules that out.
-/
namespace OData
namespace Json

variable {rest : List Char}

/-! ## Strings -/

theorem hexValue?_hexDigit : ∀ n < 16, Text.hexValue? (Text.hexDigit n) = some n := by decide

/-- The unit of a character below the space. -/
theorem unit?_hexDigit {n : Nat} (h : n < 0x20) :
    unit? '0' '0' (Text.hexDigit (n / 16)) (Text.hexDigit (n % 16)) = some n := by
  have hzero : Text.hexValue? '0' = some 0 := by decide
  have hsum : ((0 * 16 + 0) * 16 + n / 16) * 16 + n % 16 = n := by omega
  rw [unit?, hzero, hexValue?_hexDigit _ (by omega), hexValue?_hexDigit _ (by omega)]
  exact congrArg some hsum

theorem joinPieces_unit {n : Nat} (h : n < 0xd800) (ps : List Piece) :
    joinPieces (.unit n :: ps) = (joinPieces ps).map (Char.ofNat n :: ·) := by
  have hleading : isLeading n = false := by simp [isLeading]; omega
  have htrailing : isTrailing n = false := by simp [isTrailing]; omega
  rcases ps with _ | ⟨_ | m, ps⟩
  · simp [joinPieces, hleading, htrailing]
  · simp [joinPieces, hleading, htrailing]
  · rw [joinPieces]
    simp [hleading, htrailing]

/-- A piece in front of a string's text is a character in front of the string. -/
theorem stringBody_of_pieces {s t : List Char} {c : Char} {p : Piece}
    (h : pieces t = (pieces s).map fun x => (p :: x.1, x.2))
    (hp : ∀ ps, joinPieces (p :: ps) = (joinPieces ps).map (c :: ·)) :
    stringBody t = (stringBody s).map fun x => (c :: x.1, x.2) := by
  rw [stringBody, stringBody, h]
  rcases pieces s with _ | ⟨ps, r⟩
  · rfl
  · simp only [Option.map_some, Option.bind_eq_bind, Option.bind_some, hp]
    cases joinPieces ps <;> rfl

theorem pieces_of_visible {c : Char} {s : List Char} (hquote : c ≠ '"') (hback : c ≠ '\\')
    (hge : ¬ c.toNat < 0x20) :
    pieces (c :: s) = (pieces s).map fun x => (.char c :: x.1, x.2) := by
  rw [pieces.eq_def]
  split
  · next h => cases h
  · next h => exact absurd (List.cons.inj h).1 hquote
  · next h => exact absurd (List.cons.inj h).1 hback
  · next h => exact absurd (List.cons.inj h).1 hback
  · next h =>
    obtain ⟨rfl, rfl⟩ := List.cons.inj h
    rw [if_neg (not_or.mpr ⟨hge, hback⟩)]

theorem stringBody_writeChar (c : Char) (s : List Char) :
    stringBody (writeChar c ++ s) = (stringBody s).map fun x => (c :: x.1, x.2) := by
  rw [writeChar.eq_def]
  split
  case h_8 hquote hback _ _ _ _ _ =>
    split
    · next hlt =>
      refine stringBody_of_pieces (p := .unit c.toNat) ?_ fun ps => ?_
      · simp only [List.cons_append, List.nil_append]
        rw [pieces, unit?_hexDigit hlt]
      · rw [joinPieces_unit (by omega), Char.ofNat_toNat]
    · next hge =>
      exact stringBody_of_pieces (pieces_of_visible hquote hback hge) fun _ => rfl
  all_goals exact stringBody_of_pieces (p := .char _) rfl fun _ => rfl

theorem stringBody_written (cs rest : List Char) :
    stringBody (cs.flatMap writeChar ++ '"' :: rest) = some (cs, rest) := by
  induction cs with
  | nil => rfl
  | cons c cs ih =>
    rw [List.flatMap_cons, List.append_assoc, stringBody_writeChar, ih]
    rfl

/-- A string is read back. -/
theorem string_writeText (s : String) (rest : List Char) :
    string (writeText s ++ rest) = some (s, rest) := by
  have htext : writeText s ++ rest = '"' :: (s.toList.flatMap writeChar ++ '"' :: rest) := by
    simp [writeText]
  rw [htext, string, stringBody_written]
  exact congrArg (fun s => some (s, rest)) (String.ofList_toList)

/-! ## Items and members -/

/-- Texts between commas, up to a closing character. -/
def writeBetween {α : Type} (write : α → List Char) (close : Char) : List α → List Char
  | [] => [close]
  | [x] => write x ++ [close]
  | x :: y :: xs => write x ++ ',' :: writeBetween write close (y :: xs)

/-- The text of a member. -/
def writeMember (m : String × Json) : List Char := writeText m.1 ++ ':' :: write m.2

theorem writeItems_eq (items : List Json) : writeItems items = writeBetween write ']' items := by
  induction items with
  | nil => rfl
  | cons j items ih =>
    cases items with
    | nil => rfl
    | cons k items =>
      rw [writeItems, ih, writeBetween]
      simp

theorem writeMembers_eq (members : List (String × Json)) :
    writeMembers members = writeBetween writeMember '}' members := by
  induction members with
  | nil => rfl
  | cons m members ih =>
    cases members with
    | nil => simp [writeMembers, writeBetween, writeMember]
    | cons m' members =>
      rw [writeMembers, ih, writeBetween, writeMember]
      · simp
      · simp

/-- The text starts with a character that is neither white space nor `close`. -/
def StartsApart (close : Char) (s : List Char) : Prop :=
  ∃ c t, s = c :: t ∧ isSpace c = false ∧ c ≠ close

theorem StartsApart.skipSpace {close : Char} {s : List Char} (h : StartsApart close s)
    (rest : List Char) : skipSpace (s ++ rest) = s ++ rest := by
  obtain ⟨c, t, rfl, hc, -⟩ := h
  exact List.dropWhile_cons_of_neg (by simp [hc])

section
variable {α : Type} {item : Reader α} {write : α → List Char} {close : Char}

theorem skipSpace_close (h : close = ']' ∨ close = '}') (rest : List Char) :
    skipSpace (close :: rest) = close :: rest := by
  rcases h with rfl | rfl <;> rfl

theorem length_le_length_writeBetween {xs : List α} (h : ∀ x ∈ xs, StartsApart close (write x)) :
    xs.length ≤ (writeBetween write close xs).length := by
  induction xs with
  | nil => exact Nat.zero_le _
  | cons x xs ih =>
    have hxs := ih fun y hy => h y (List.mem_cons_of_mem _ hy)
    cases xs with
    | nil => simp [writeBetween]
    | cons y xs =>
      simp only [writeBetween, List.length_append, List.length_cons] at hxs ⊢
      omega

theorem itemsUpTo_writeBetween (hclose : close = ']' ∨ close = '}') {xs : List α}
    (starts : ∀ x ∈ xs, StartsApart close (write x))
    (reads : ∀ x ∈ xs, ∀ rest, Ends rest → item (write x ++ rest) = some (x, rest))
    (hne : xs ≠ []) {rounds : Nat} (hrounds : xs.length ≤ rounds) (rest : List Char) :
    itemsUpTo item close rounds (writeBetween write close xs ++ rest) = some (xs, rest) := by
  induction xs generalizing rounds with
  | nil => exact absurd rfl hne
  | cons x xs ih =>
    obtain ⟨rounds, rfl⟩ : ∃ n, rounds = n + 1 := ⟨rounds - 1, by simp at hrounds; omega⟩
    have hx := starts x (List.mem_cons_self ..)
    have hread := reads x (List.mem_cons_self ..)
    cases xs with
    | nil =>
      have hend : Ends (close :: rest) := ends_cons (.inr hclose) rest
      have hcomma : close ≠ ',' := by rcases hclose with rfl | rfl <;> decide
      rw [writeBetween, List.append_assoc, itemsUpTo, hx.skipSpace, List.singleton_append,
        hread _ hend]
      simp [skipSpace_close hclose, hcomma]
    | cons y xs =>
      have hrest := ih (fun z hz => starts z (List.mem_cons_of_mem _ hz))
        (fun z hz => reads z (List.mem_cons_of_mem _ hz)) (by simp) (Nat.le_of_succ_le_succ hrounds)
      have hend : ∀ s, Ends (',' :: s) := ends_cons (.inl rfl)
      have hspace : ∀ s, skipSpace (',' :: s) = ',' :: s := fun _ => rfl
      rw [writeBetween, List.append_assoc, itemsUpTo, hx.skipSpace, List.cons_append,
        hread _ (hend _)]
      simp [hspace, hrest]

/-- What stands between brackets is read back, item by item. -/
theorem sequence_writeBetween (hclose : close = ']' ∨ close = '}') {xs : List α}
    (starts : ∀ x ∈ xs, StartsApart close (write x))
    (reads : ∀ x ∈ xs, ∀ rest, Ends rest → item (write x ++ rest) = some (x, rest))
    (rest : List Char) :
    sequence item close (writeBetween write close xs ++ rest) = some (xs, rest) := by
  cases xs with
  | nil =>
    rw [writeBetween, List.singleton_append, sequence, skipSpace_close hclose]
    exact if_pos rfl
  | cons x xs =>
    have hlength := length_le_length_writeBetween starts
    have hitems : itemsUpTo item close ((writeBetween write close (x :: xs) ++ rest).length + 1)
        (writeBetween write close (x :: xs) ++ rest) = some (x :: xs, rest) :=
      itemsUpTo_writeBetween hclose starts reads (by simp) (by rw [List.length_append]; omega) rest
    -- The first item starts the text, and with no closing character.
    obtain ⟨c, t, hstart, hc, hne⟩ : StartsApart close (writeBetween write close (x :: xs)) := by
      obtain ⟨c, t, hx, hc, hne⟩ := starts x (List.mem_cons_self ..)
      cases xs <;> exact ⟨c, _, by rw [writeBetween, hx]; rfl, hc, hne⟩
    rw [sequence, StartsApart.skipSpace ⟨c, t, hstart, hc, hne⟩]
    rw [hstart] at hitems ⊢
    exact (if_neg hne).trans hitems

end

/-! ## Values -/

/-- A value whose text can be read back, with at most `depth` arrays and objects around
any part of it: 64 bits hold its integers, and the digits of each double are read as that
double. -/
inductive Legible : Nat → Json → Prop
  | null {depth} : Legible depth .null
  | bool {depth} (b : Bool) : Legible depth (.bool b)
  | int {depth n} (least : leastInt64 ≤ n) (greatest : n ≤ greatestNat64) : Legible depth (.int n)
  | double {depth d} (exact : number (writeDouble d) = some (.double d, [])) :
      Legible depth (.double d)
  | text {depth} (s : String) : Legible depth (.text s)
  | array {depth items} (items_legible : ∀ j ∈ items, Legible depth j) :
      Legible (depth + 1) (.array items)
  | object {depth members} (members_legible : ∀ m ∈ members, Legible depth m.2) :
      Legible (depth + 1) (.object members)

variable {depth : Nat} {j : Json}

theorem startsApart_writeMember (m : String × Json) : StartsApart '}' (writeMember m) :=
  ⟨'"', _, rfl, rfl, by decide⟩

theorem apart_of_sign_or_digit {c : Char} (h : c = '-' ∨ c.isDigit = true) :
    isSpace c = false ∧ c ≠ 'n' ∧ c ≠ 't' ∧ c ≠ 'f' ∧ c ≠ '"' ∧ c ≠ '[' ∧ c ≠ '{' ∧ c ≠ ']' := by
  rcases h with rfl | h
  · decide
  · have hc : ∀ x : Char, x.isDigit = false → c ≠ x := by
      rintro x hx rfl
      rw [h] at hx
      cases hx
    refine ⟨?_, hc _ rfl, hc _ rfl, hc _ rfl, hc _ rfl, hc _ rfl, hc _ rfl, hc _ rfl⟩
    simp [isSpace, hc ' ' rfl, hc '\t' rfl, hc '\n' rfl, hc '\r' rfl]

theorem startsApart_of_number {s : List Char} {p : Json × List Char} (h : number s = some p) :
    StartsApart ']' s := by
  obtain ⟨c, t, hcons, hc⟩ := exists_cons_of_number h
  obtain ⟨hspace, -, -, -, -, -, -, hclose⟩ := apart_of_sign_or_digit hc
  exact ⟨c, t, hcons, hspace, hclose⟩

theorem Legible.startsApart (h : Legible depth j) : StartsApart ']' j.write := by
  cases h with
  | null => exact ⟨'n', _, rfl, rfl, by decide⟩
  | bool b => cases b <;> exact ⟨_, _, rfl, rfl, by decide⟩
  | int least greatest =>
    have hread := number_writeInt least greatest ends_nil
    rw [List.append_nil] at hread
    exact startsApart_of_number hread
  | double exact => exact startsApart_of_number exact
  | text s => exact ⟨'"', _, rfl, rfl, by decide⟩
  | array => exact ⟨'[', _, rfl, rfl, by decide⟩
  | object => exact ⟨'{', _, rfl, rfl, by decide⟩

/-- A number is neither a word nor a string, and no bracket opens it. -/
theorem valueWith_of_number (openArray openObject : Reader Json) {s : List Char}
    {p : Json × List Char} (h : number s = some p) :
    valueWith openArray openObject s = some p := by
  obtain ⟨c, t, hcons, hc⟩ := exists_cons_of_number h
  obtain ⟨-, hn, ht, hf, hquote, harray, hobject, -⟩ := apart_of_sign_or_digit hc
  rw [hcons] at h ⊢
  rw [valueWith.eq_def]
  split
  · next h => exact absurd (List.cons.inj h).1 hn
  · next h => exact absurd (List.cons.inj h).1 ht
  · next h => exact absurd (List.cons.inj h).1 hf
  · next h => exact absurd (List.cons.inj h).1 hquote
  · next h => exact absurd (List.cons.inj h).1 harray
  · next h => exact absurd (List.cons.inj h).1 hobject
  · exact h

theorem valueWith_writeText (openArray openObject : Reader Json) (s : String) (rest : List Char) :
    valueWith openArray openObject (writeText s ++ rest) = some (.text s, rest) := by
  have hstring := string_writeText s rest
  have hcons : writeText s ++ rest = '"' :: (s.toList.flatMap writeChar ++ ['"'] ++ rest) := rfl
  rw [hcons] at hstring ⊢
  rw [valueWith, hstring]
  rfl

/-- A member is read back if its value is. -/
theorem member_writeMember {item : Reader Json} {m : String × Json}
    (starts : StartsApart ']' m.2.write)
    (reads : ∀ rest, Ends rest → item (m.2.write ++ rest) = some (m.2, rest)) (rest : List Char)
    (ends : Ends rest) : member item (writeMember m ++ rest) = some (m, rest) := by
  have htext : writeMember m ++ rest = writeText m.1 ++ ':' :: (m.2.write ++ rest) := by
    simp [writeMember]
  have hcolon : skipSpace (':' :: (m.2.write ++ rest)) = ':' :: (m.2.write ++ rest) := rfl
  rw [member, htext, string_writeText]
  simp [hcolon, starts.skipSpace, reads rest ends]

/-- **A legible value is read back**, and what follows it is left. -/
theorem value_write (h : Legible depth j) :
    ∀ rest, Ends rest → value depth (j.write ++ rest) = some (j, rest) := by
  induction h with
  | @null depth =>
    intro rest _
    cases depth <;> rfl
  | @bool depth b =>
    intro rest _
    cases b <;> cases depth <;> rfl
  | @int depth n least greatest =>
    intro rest ends
    have hnumber := number_writeInt least greatest ends
    cases depth <;> exact valueWith_of_number _ _ hnumber
  | @double depth d exact =>
    intro rest ends
    have hnumber : number (writeDouble d ++ rest) = some (.double d, rest) :=
      number_append exact ends
    cases depth <;> exact valueWith_of_number _ _ hnumber
  | @text depth s =>
    intro rest _
    cases depth <;> exact valueWith_writeText _ _ s rest
  | @array depth items legible ih =>
    intro rest _
    have hsequence := sequence_writeBetween (.inl rfl) (fun j hj => (legible j hj).startsApart) ih rest
    rw [write, writeItems_eq, List.cons_append, value, valueWith, hsequence]
    rfl
  | @object depth members legible ih =>
    intro rest _
    have hsequence := sequence_writeBetween (.inr rfl) (fun m _ => startsApart_writeMember m)
      (fun m hm => member_writeMember (legible m hm).startsApart (ih m hm)) rest
    rw [write, writeMembers_eq, List.cons_append, value, valueWith, hsequence]
    rfl

/-- Reading the compact text of a legible value gives the value. -/
theorem readWritten?_compact (h : Legible greatestDepth j) : readWritten? j.compact = some j := by
  have hread := value_write h [] ends_nil
  have hspace := h.startsApart.skipSpace []
  rw [List.append_nil] at hread hspace
  rw [readWritten?, compact, String.toList_ofList, hspace, hread]
  rfl

example : readWritten? (compact (.object [("b", .int (-7)), ("a", .array [.text "\n", .null])])) =
    some (.object [("b", .int (-7)), ("a", .array [.text "\n", .null])]) := by decide +kernel

theorem read?_compact (h : Legible greatestDepth j) : read? j.compact = some j.normal := by
  rw [read?, readWritten?_compact h]
  rfl

end Json
end OData
