import Mathlib.Data.List.Perm.Subperm
import OData.Proofs.FilterText.Acceptance

/-! # Captured values are fetched once

Compiling a filter fetches the captured values, and a service is to see values of one
moment.  `Notes` says what a computation fetches: no slot more often than allowed and, if it
comes to a result, each slot just as often, but for some that stay idle.  The statement
goes through sequences (`Notes.bind`), and so through the compiler
(`notes_compileNode`): what a filter notes are its captures.  Idle are the captures
strictly inside what is looked for in an empty list, since the answer is known
without it.
-/
namespace OData
namespace Filter

/-! ## The captures of a filter -/

mutual

/-- The captures of a filter, one for each node that is a capture. -/
def captures : Filter → List Capture
  | binary _ left right => left.captures ++ right.captures
  | not operand => operand.captures
  | captured c => [c]
  | call target _ arguments => capturesOf target ++ capturesOfAll arguments
  | quantified _ _ _ predicate => capturesOf predicate
  | member _ | literal _ | raw _ => []
termination_by structural f => f

def capturesOf : Option Filter → List Capture
  | none => []
  | some f => f.captures
termination_by structural f? => f?

def capturesOfAll : List Filter → List Capture
  | [] => []
  | f :: fs => f.captures ++ capturesOfAll fs
termination_by structural fs => fs

end

/-- The captures strictly inside a node. -/
def innerCaptures : Filter → List Capture
  | captured _ => []
  | f => f.captures

/-- The operand that a call looks for in an empty list. -/
def vainOperand? (target : Option Filter) (name : String) (arguments : List Filter) :
    Option Filter :=
  match Method.ofName? name, target, arguments with
  | some .isIn, some receiver, [argument] =>
    match argument.constantItems?, receiver.constantItems? with
    | some items, _ => if items.isEmpty then some receiver else none
    | none, some items => if items.isEmpty then some argument else none
    | none, none => none
  | _, _, _ => none

mutual

/-- The captures that no text needs: those strictly inside what is looked for in an empty
list. -/
def idleCaptures : Filter → List Capture
  | binary _ left right => left.idleCaptures ++ right.idleCaptures
  | not operand => operand.idleCaptures
  | call target name arguments =>
    match vainOperand? target name arguments with
    | some f => f.innerCaptures
    | none => idleCapturesOf target ++ idleCapturesOfAll arguments
  | quantified _ _ _ predicate => idleCapturesOf predicate
  | captured _ | member _ | literal _ | raw _ => []
termination_by structural f => f

def idleCapturesOf : Option Filter → List Capture
  | none => []
  | some f => f.idleCaptures
termination_by structural f? => f?

def idleCapturesOfAll : List Filter → List Capture
  | [] => []
  | f :: fs => f.idleCaptures ++ idleCapturesOfAll fs
termination_by structural fs => fs

end

/-- The slots of captures. -/
def slots (cs : List Capture) : List Nat := cs.map Capture.slot

theorem slots_append (cs cs' : List Capture) : slots (cs ++ cs') = slots cs ++ slots cs' :=
  List.map_append

/-! ## What a computation fetches -/

section
variable {α β : Type} {m : Compiler α} {k : α → Compiler β} {all idle all' idle' : List Nat}

/-- The computation fetches each slot of `all` at most as often as it stands there and,
if it finds something, just as often unless the slot is idle. -/
def Notes (m : Compiler α) (all idle : List Nat) : Prop :=
  ∀ log, ∃ r new, m.run.run log = (r, log ++ new) ∧ new.Subperm all ∧
    ∀ a, r = .ok a → (new ++ idle).Perm all

/-- What fetches nothing leaves all slots idle. -/
theorem notes_pure (a : α) (all : List Nat) : Notes (pure a) all all := by
  intro log
  exact ⟨.ok a, [], by rw [List.append_nil]; rfl, List.nil_subperm, fun _ _ => .refl _⟩

theorem notes_throw (u : Unsupported) : Notes (throw u : Compiler α) all idle := by
  intro log
  exact ⟨.error u, [], by rw [List.append_nil]; rfl, List.nil_subperm, nofun⟩

theorem Notes.bind (h : Notes m all idle) (h' : ∀ a, Notes (k a) all' idle') :
    Notes (m >>= k) (all ++ all') (idle ++ idle') := by
  intro log
  obtain ⟨r, new, hm, hsub, hall⟩ := h log
  cases r with
  | error u =>
    refine ⟨.error u, new, ?_, hsub.trans (List.sublist_append_left _ _).subperm, nofun⟩
    rw [ExceptT.run_bind, StateT.run_bind, hm]
    rfl
  | ok a =>
    obtain ⟨r, new', hk, hsub', hall'⟩ := h' a (log ++ new)
    refine ⟨r, new ++ new', ?_, hsub.append hsub', fun b hb => ?_⟩
    · rw [ExceptT.run_bind, StateT.run_bind, hm, ← List.append_assoc]
      exact hk
    · have hperm := (hall a rfl).append (hall' b hb)
      refine List.Perm.trans ?_ hperm
      rw [List.append_assoc, List.append_assoc]
      refine List.Perm.append_left _ ?_
      rw [← List.append_assoc, ← List.append_assoc]
      exact (List.perm_append_comm).append_right _

theorem Notes.perm (h : Notes m all idle) (hall : all.Perm all') (hidle : idle.Perm idle') :
    Notes m all' idle' := by
  intro log
  obtain ⟨r, new, hm, hsub, hfound⟩ := h log
  refine ⟨r, new, hm, hsub.trans hall.subperm, fun a ha => ?_⟩
  exact ((hidle.symm.append_left new).trans (hfound a ha)).trans hall

/-- What follows a computation may fetch nothing. -/
theorem Notes.bind_pure (h : Notes m all idle) (f : α → β) :
    Notes (m >>= fun a => pure (f a)) all idle := by
  simpa using h.bind fun a => notes_pure (f a) []

theorem notes_fetch (c : Capture) : Notes (fetch c) [c.slot] [] := by
  intro log
  exact ⟨.ok c.value, [c.slot], rfl, List.Subperm.refl _, fun _ _ => .refl _⟩

theorem notes_lift (x : Except Unsupported α) : Notes (liftM x : Compiler α) [] [] := by
  cases x with
  | error u => exact notes_throw u
  | ok a => exact notes_pure a []

theorem notes_checkReceiver (method : String) (f : Filter) :
    Notes (checkReceiver method f) [] [] := by
  rw [checkReceiver]
  split
  · exact notes_throw _
  · exact notes_pure () []

end

/-! ## The captures of a call -/

/-- The capture that a node is. -/
def ownCaptures : Filter → List Capture
  | captured c => [c]
  | _ => []

theorem captures_eq (f : Filter) : f.captures = f.ownCaptures ++ f.innerCaptures := by
  cases f <;> rfl

variable {receiver argument path : Filter} {items : List Literal} {target : Option Filter}
  {name : String} {arguments : List Filter} {operand f : Filter}

theorem captures_pair : (call (some receiver) name [argument]).captures =
    receiver.captures ++ argument.captures := by
  simp [captures, capturesOf, capturesOfAll]

/-- A membership fetches the operands that are captures first. -/
theorem captures_membership :
    (call (some receiver) name [argument]).captures.Perm (receiver.ownCaptures ++
      (argument.ownCaptures ++ (receiver.innerCaptures ++ argument.innerCaptures))) := by
  rw [captures_pair, captures_eq receiver, captures_eq argument, List.append_assoc]
  refine List.Perm.append_left _ ?_
  rw [← List.append_assoc, ← List.append_assoc]
  exact List.perm_append_comm.append_right _

/-- A list has no captures inside. -/
theorem innerCaptures_of_constantItems? (h : f.constantItems? = some items) :
    f.innerCaptures = [] ∧ f.idleCaptures = [] := by
  cases f with
  | literal value => exact ⟨rfl, rfl⟩
  | captured c => exact ⟨rfl, rfl⟩
  | _ => cases h

/-- Of the operands of a membership only what is looked for has captures inside. -/
theorem HasItems.innerCaptures (has : HasItems receiver argument path items) :
    receiver.innerCaptures ++ argument.innerCaptures = path.innerCaptures := by
  rcases has with ⟨h, rfl⟩ | ⟨-, h, rfl⟩
  · rw [(innerCaptures_of_constantItems? h).1, List.append_nil]
  · rw [(innerCaptures_of_constantItems? h).1, List.nil_append]

theorem HasItems.vainOperand? (has : HasItems receiver argument path items)
    (method : Method.ofName? name = some .isIn) :
    vainOperand? (some receiver) name [argument] = if items.isEmpty then some path else none := by
  rcases has with ⟨h, rfl⟩ | ⟨hnone, h, rfl⟩
  · simp only [Filter.vainOperand?, method, h]
  · simp only [Filter.vainOperand?, method, hnone, h]

/-- The idle operand of a call is what the call looks for in vain. -/
theorem vainOperand?_eq_some_iff :
    Filter.vainOperand? target name arguments = some f ↔ LooksInVain target name arguments f := by
  constructor
  · intro h
    rw [Filter.vainOperand?.eq_def] at h
    split at h
    · next receiver argument method =>
      refine ⟨ofName?_isIn_iff.mp method, receiver, argument, rfl, rfl, ?_⟩
      split at h
      · next items hitems =>
        obtain ⟨hempty, hf⟩ := Option.ite_none_right_eq_some.mp h
        obtain rfl := List.isEmpty_iff.mp hempty
        exact .inl ⟨hitems, (Option.some.inj hf).symm⟩
      · next items hnone hitems =>
        obtain ⟨hempty, hf⟩ := Option.ite_none_right_eq_some.mp h
        obtain rfl := List.isEmpty_iff.mp hempty
        exact .inr ⟨hnone, hitems, (Option.some.inj hf).symm⟩
      · cases h
    · cases h
  · rintro ⟨hname, receiver, argument, rfl, rfl, has⟩
    rw [has.vainOperand? (ofName?_isIn_iff.mpr hname)]
    rfl

theorem captures_of_hasOperand (h : HasOperand target arguments operand) :
    (call target name arguments).captures = operand.captures := by
  rcases h with ⟨rfl, rfl⟩ | ⟨rfl, rfl⟩ <;> simp [captures, capturesOf, capturesOfAll]

theorem vainOperand?_eq_none (h : Method.ofName? name ≠ some .isIn) :
    vainOperand? target name arguments = none := by
  rw [Option.eq_none_iff_forall_ne_some]
  intro f hf
  exact h (ofName?_isIn_iff.mpr (vainOperand?_eq_some_iff.mp hf).1)

theorem idleCaptures_call (h : Method.ofName? name ≠ some .isIn) :
    (call target name arguments).idleCaptures =
      idleCapturesOf target ++ idleCapturesOfAll arguments := by
  rw [idleCaptures, vainOperand?_eq_none h]

theorem idleCaptures_of_hasOperand (h : HasOperand target arguments operand)
    (method : Method.ofName? name ≠ some .isIn) :
    (call target name arguments).idleCaptures = operand.idleCaptures := by
  rw [idleCaptures_call method]
  rcases h with ⟨rfl, rfl⟩ | ⟨rfl, rfl⟩ <;> simp [idleCapturesOf, idleCapturesOfAll]

theorem HasItems.idleCaptures (has : HasItems receiver argument path items)
    (method : Method.ofName? name = some .isIn) :
    (call (some receiver) name [argument]).idleCaptures =
      if items.isEmpty then path.innerCaptures else path.idleCaptures := by
  rw [Filter.idleCaptures, has.vainOperand? method]
  cases items.isEmpty with
  | true => rfl
  | false =>
    rcases has with ⟨h, rfl⟩ | ⟨-, h, rfl⟩ <;>
      simp [idleCapturesOf, idleCapturesOfAll, (innerCaptures_of_constantItems? h).2]

/-! ## What compiling fetches -/

/-- What a membership comes to when the operands that are captures have been fetched. -/
def lookFor (scope : List String) (path : Filter) (items : List Literal) : Compiler String :=
  if items.isEmpty then pure "false"
  else match path with
    | captured c => pure (compileNode.membership c.value.render items)
    | _ => do
      let s ← compileNode scope none path
      pure (compileNode.membership s items)

/-- The items of a membership, which are those of the argument if it is a list, decide what is
looked for among them. -/
def byItems (argument receiver : Option (List Literal))
    (lookForReceiver lookForArgument : List Literal → Compiler String) : Compiler String :=
  match argument, receiver with
  | some items, _ => lookForReceiver items
  | none, some items => lookForArgument items
  | none, none => throw .membershipShape

theorem compileNode_isIn (scope : List String) (parent : Option BinaryOp)
    (method : Method.ofName? name = some .isIn) :
    compileNode scope parent (call (some receiver) name [argument]) = (do
      fetchIfCaptured receiver
      fetchIfCaptured argument
      byItems argument.constantItems? receiver.constantItems? (lookFor scope receiver)
        (lookFor scope argument)) := by
  rw [compileNode, method]
  rfl

theorem notes_fetchIfCaptured (f : Filter) :
    Notes (fetchIfCaptured f) (slots f.ownCaptures) [] := by
  cases f with
  | captured c => exact (notes_fetch c).bind_pure fun _ => ()
  | _ => exact notes_pure () []

/-- A membership compiles what is looked for if there are items, unless it is a capture,
which has been fetched before. -/
theorem notes_lookFor {scope : List String} (has : HasItems receiver argument path items)
    (method : Method.ofName? name = some .isIn)
    (h : Notes (compileNode scope none path) (slots path.captures) (slots path.idleCaptures)) :
    Notes (lookFor scope path items)
      (slots receiver.innerCaptures ++ slots argument.innerCaptures)
      (slots (call (some receiver) name [argument]).idleCaptures) := by
  rw [← slots_append, has.innerCaptures, has.idleCaptures method, lookFor.eq_def]
  split
  · exact notes_pure _ _
  · cases path with
    | captured c => exact notes_pure _ []
    | _ => exact h.bind_pure _

/-- A call of one operand has the captures of the operand. -/
theorem Notes.of_hasOperand {m : Compiler String}
    (h : Notes m (slots operand.captures) (slots operand.idleCaptures))
    (has : HasOperand target arguments operand) (method : Method.ofName? name ≠ some .isIn) :
    Notes m (slots (call target name arguments).captures)
      (slots (call target name arguments).idleCaptures) := by
  rw [captures_of_hasOperand has, idleCaptures_of_hasOperand has method]
  exact h

/-- Compiling a filter notes its captures. -/
theorem notes_compileNode (scope : List String) (parent : Option BinaryOp) (f : Filter) :
    Notes (compileNode scope parent f) (slots f.captures) (slots f.idleCaptures) := by
  fun_induction compileNode scope parent f with
  | case1 scope parent op left right ihl ihr =>
    rw [captures, idleCaptures, slots_append, slots_append]
    exact ihl.bind fun a => ihr.bind_pure _
  | case2 scope parent operand ih => exact ih.bind_pure _
  | case3 scope parent path => exact notes_lift _
  | case4 scope parent value => exact notes_pure _ []
  | case5 scope parent c => exact (notes_fetch c).bind_pure _
  | case6 scope parent text => exact notes_pure _ []
  | case7 scope parent q collection name predicate ih =>
    show Notes _ ([] ++ slots (capturesOf predicate)) ([] ++ slots (idleCapturesOf predicate))
    refine (notes_lift _).bind fun path => ?_
    cases predicate with
    | none => exact notes_pure _ []
    | some p =>
      cases hname : name.isEmpty with
      | true => exact notes_throw _
      | false =>
        simp only [Bool.false_eq_true, if_false]
        exact ih.bind_pure _
  | case8 scope parent target name arguments method => exact notes_throw _
  | case9 scope parent target name arguments method => exact notes_throw _
  | case10 scope parent name arguments t method => exact notes_throw _
  | case11 scope parent name t method receiver argument ihr iha =>
    rw [idleCaptures_call (by simp [method])]
    have h := (notes_checkReceiver t.word receiver).bind fun _ =>
      ihr.bind fun a => iha.bind_pure fun b => t.word ++ "(" ++ a ++ "," ++ b ++ ")"
    simpa [captures, capturesOf, capturesOfAll, idleCapturesOf, idleCapturesOfAll, slots] using h
  | case12 scope parent name t method target arguments => exact notes_throw _
  | case13 scope parent name m method receiver ih =>
    refine Notes.of_hasOperand ?_ (.inl ⟨rfl, rfl⟩) (by simp [method])
    exact (notes_checkReceiver _ _).bind fun _ => ih.bind_pure _
  | case14 scope parent name m method receiver ih =>
    refine Notes.of_hasOperand ?_ (.inr ⟨rfl, rfl⟩) (by simp [method])
    exact (notes_checkReceiver _ _).bind fun _ => ih.bind_pure _
  | case15 scope parent target name arguments m method => exact notes_throw _
  | case16 scope parent name method operand ih =>
    refine Notes.of_hasOperand ?_ (.inl ⟨rfl, rfl⟩) (by simp [method])
    exact ih.bind_pure _
  | case17 scope parent name method operand ih =>
    refine Notes.of_hasOperand ?_ (.inr ⟨rfl, rfl⟩) (by simp [method])
    exact ih.bind_pure _
  | case18 scope parent target name arguments method => exact notes_throw _
  | case19 scope parent name method receiver argument ihr iha =>
    -- The operands that are captures are fetched first, what is inside them afterwards.
    have hrest : Notes (byItems argument.constantItems? receiver.constantItems?
        (lookFor scope receiver) (lookFor scope argument))
        (slots receiver.innerCaptures ++ slots argument.innerCaptures)
        (slots (call (some receiver) name [argument]).idleCaptures) := by
      rw [byItems.eq_def]
      split
      · next items h => exact notes_lookFor (.inl ⟨h, rfl⟩) method ihr
      · next items hnone h => exact notes_lookFor (.inr ⟨hnone, h, rfl⟩) method iha
      · exact notes_throw _
    have h := (notes_fetchIfCaptured receiver).bind fun _ =>
      (notes_fetchIfCaptured argument).bind fun _ => hrest
    refine h.perm ?_ (.refl _)
    rw [← slots_append, ← slots_append, ← slots_append]
    exact captures_membership.symm.map _
  | case20 scope parent target name arguments method => exact notes_throw _

end Filter
end OData
