import OData.Proofs.Text.Nesting
import OData.Proofs.Url.Marks

/-! # Filter text is closed

Parentheses, commas and quotes in the text of a filter come from its calls, its lists and
its strings, which close what they open.  So the text can stand in parentheses, between
other clauses or among the options of an expansion, and it still shows where it ends.
-/
namespace OData
namespace Filter

open Text

/-- What separates the parts of a list or of an expansion. -/
def separators : List Char := [',', ';']

/-- What a name must not hold to show where it ends. -/
def delimiters : List Char := ['\'', '(', ')'] ++ separators

variable {s : String} {scope : List String} {parent : Option BinaryOp}

theorem closed_of_lacks (h : Lacks delimiters s) : Closed separators s.toList := by
  refine closed_of_plain fun c hc => ⟨fun hmark => ?_, fun hmark => ?_⟩
  · exact h c (List.mem_append_left _ hmark) hc
  · exact h c (List.mem_append_right _ hmark) hc

theorem closed_group {marks t : List Char} (h : Closed marks t) :
    Closed separators ('(' :: (t ++ [')'])) := h.group (by decide)

/-! ## Literals -/

mutual

/-- A literal is closed, whatever stands in its strings and however deep its lists are. -/
theorem closed_render : ∀ v : Literal, Closed separators v.render.toList
  | .text s => by
    rw [Literal.render]
    exact closed_quoted (by decide) s
  | .enumMember name => by
    rw [Literal.render]
    exact closed_quoted (by decide) name
  | .list items => by
    have hitems : Closed [] ([','].intercalate ((Literal.renderAll items).map String.toList)) := by
      refine closed_intercalate (by decide) fun p hp => ?_
      obtain ⟨t, ht, rfl⟩ := List.mem_map.mp hp
      exact (closed_renderAll items t ht).mono (List.nil_subset _)
    rw [Literal.render]
    simpa [String.toList_intercalate] using closed_group hitems
  | .null | .bool _ | .int _ | .double _ | .instant _ | .guid _ =>
    closed_of_lacks (lacks_of_forall (FilterText.isBareChar_of_mem_render trivial) (by decide))
termination_by structural v => v

theorem closed_renderAll : ∀ vs : List Literal, ∀ t ∈ Literal.renderAll vs,
    Closed separators t.toList
  | [] => nofun
  | v :: vs => by
    rw [Literal.renderAll, List.forall_mem_cons]
    exact ⟨closed_render v, closed_renderAll vs⟩
termination_by structural vs => vs

end

/-! ## Filters -/

theorem closed_path {path : MemberPath} (h : compilePath scope path = .ok s)
    (names : ∀ n ∈ FilterText.pathNames path, Lacks delimiters n) : Closed separators s.toList := by
  refine closed_of_lacks ?_
  rw [(FilterText.compilePath_eq_ok h).1]
  exact lacks_intercalate (by decide) names

/-- A call of closed arguments is closed. -/
theorem closed_call {word : List Char} (arguments : List (List Char))
    (hword : Closed separators word) (h : ∀ a ∈ arguments, Closed separators a) :
    Closed separators (word ++ '(' :: ([','].intercalate arguments ++ [')'])) := by
  have harguments : Closed [] ([','].intercalate arguments) :=
    closed_intercalate (by decide) fun a ha => (h a ha).mono (List.nil_subset _)
  exact hword.append (closed_group harguments)

theorem closed_binaryText {op : BinaryOp} {a b : String} (ha : Closed separators a.toList)
    (hb : Closed separators b.toList) : Closed separators (binaryText parent op a b).toList := by
  have hsymbol : Closed separators (' ' :: (op.symbol.toList ++ [' '])) := by
    cases op <;> decide
  have hjoined := (ha.append hsymbol).append hb
  rw [binaryText]
  split
  · simpa using closed_group hjoined
  · simpa using hjoined

variable {name content : String → Prop}

/-- A filter without raw text whose names hold no delimiter has a closed text. -/
theorem closed_of_written {f : Filter} (hname : ∀ n, name n → Lacks delimiters n)
    (w : Written scope parent f s) (u : f.Uses name content) : Closed separators s.toList := by
  induction w with
  | binary _ _ ihl ihr =>
    cases u with
    | binary l r => exact closed_binaryText (ihl l) (ihr r)
  | not _ ih =>
    cases u with
    | not u =>
      have hword : Closed separators "not ".toList := by decide
      simpa using hword.append (closed_group (ih u))
  | member h =>
    cases u with
    | member names => exact closed_path h fun n hn => hname n (names n hn)
  | literal => exact closed_render _
  | captured => exact closed_render _
  | raw => cases u
  | @nonempty _ _ q _ _ _ h =>
    cases u with
    | quantified names bound u =>
      have hword : Closed separators ('/' :: (q.word.toList ++ ['(', ')'])) := by
        cases q <;> decide
      have hpath := closed_path h fun n hn => hname n (names n hn)
      simpa using hpath.append hword
  | @quantified _ _ q _ x _ _ inner h _ _ ih =>
    cases u with
    | quantified names bound u =>
      have hword : Closed separators ('/' :: q.word.toList) := by cases q <;> decide
      have hcolon : Closed separators ": ".toList := by decide
      have hpath := closed_path h fun n hn => hname n (names n hn)
      have hx := closed_of_lacks (hname x (bound rfl))
      have hinner := (hx.append hcolon).append (ih (u _ rfl))
      simpa using (hpath.append hword).append (closed_group hinner)
  | @test _ _ _ t _ _ a b _ _ _ _ ihr iha =>
    cases u with
    | call operands =>
      have hword : Closed separators t.word.toList := by cases t <;> decide
      have hcall := closed_call [a.toList, b.toList] hword
        (by simpa using ⟨ihr (operands _ (by simp)), iha (operands _ (by simp))⟩)
      simpa [List.intercalate_cons_cons] using hcall
  | @map _ _ _ _ _ m _ s _ single _ _ ih =>
    cases u with
    | call operands =>
      have hword : Closed separators m.word.toList := by cases m <;> decide
      have hcall := closed_call [s.toList] hword
        (by simpa using ih (operands _ single.mem))
      simpa using hcall
  | isNullOrEmpty _ single _ ih =>
    cases u with
    | call operands =>
      have hs := ih (operands _ single.mem)
      have hnull : Closed separators " eq null or ".toList := by decide
      have hempty : Closed separators " eq ''".toList := by decide
      simpa using closed_group (((hs.append hnull).append hs).append hempty)
  | noItems => exact (by decide : Closed separators "false".toList)
  | @isIn _ _ _ _ _ _ items s _ has _ _ ih =>
    cases u with
    | call operands =>
      have hword : Closed separators (s.toList ++ " in ".toList) :=
        (ih (operands _ has.mem)).append (by decide)
      have hcall := closed_call (items.map fun v => v.render.toList) hword (by
        intro a ha
        obtain ⟨v, -, rfl⟩ := List.mem_map.mp ha
        exact closed_render v)
      rw [compileNode.membership]
      simpa [String.toList_intercalate, Function.comp_def] using hcall

/-- The text found for a filter without raw text whose names hold no delimiter is closed. -/
theorem closed_compile {f : Filter} (hname : ∀ n, name n → Lacks delimiters n)
    (h : f.compile = .ok s) (u : f.Uses name content) : Closed separators s.toList :=
  closed_of_written hname (written_of_finds ⟨[], f.compileLogged.2, Prod.ext h rfl⟩) u

end Filter
end OData
