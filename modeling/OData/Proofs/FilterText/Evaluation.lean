import OData.Proofs.FilterText.Captures

/-! # Captures that answer anew

A captured value may be a different one each time it is asked for.  `compileBy` is the
compiler with the way of fetching left open, and `evaluate` fetches what a capture answers
at that moment.  Filter text does not show that answers change: each capture is fetched
once, and the text, the choice of the list in a membership included, is made of the first
answers (`evaluated_once`).
-/
namespace OData
namespace Filter

variable {receiver argument path : Filter} {items : List Literal} {name : String}

/-! ## Compiling by any way of fetching -/

/-- A node with the value that is fetched for it in its place if it is a capture. -/
def resolve (answer : Capture → Compiler Literal) : Filter → Compiler Filter
  | captured c => do return literal (← answer c)
  | f => pure f

/-- The text of a node, where captures are fetched by `answer`; what a membership fetches is
what it looks at and what it writes. -/
def compileBy (answer : Capture → Compiler Literal) (scope : List String)
    (parent : Option BinaryOp) : Filter → Compiler String
  | binary op left right => do
    let left ← compileBy answer scope (some op) left
    let right ← compileBy answer scope (some op) right
    return binaryText parent op left right
  | not operand => do
    return "not (" ++ (← compileBy answer scope none operand) ++ ")"
  | member path => compilePath scope path
  | literal value => return value.render
  | captured c => do
    return (← answer c).render
  | raw text =>
    return if parent.any BinaryOp.isConnective then "(" ++ text ++ ")" else text
  | quantified q collection name predicate => do
    let path ← compilePath scope collection
    match predicate with
    | none => return path ++ "/" ++ q.word ++ "()"
    | some p =>
      if name.isEmpty then throw (.unnamedVariable q)
      let inner ← compileBy answer (name :: scope) none p
      return path ++ "/" ++ q.word ++ "(" ++ name ++ ": " ++ inner ++ ")"
  | call target name arguments =>
    match Method.ofName? name with
    | none => throw (.unknownMethod name)
    | some .quantifier => throw (.quantifierCall name)
    | some (.test t) =>
      match target, arguments with
      | none, _ => throw (.noReceiver t)
      | some receiver, [argument] => do
        checkReceiver t.word receiver
        let receiver ← compileBy answer scope none receiver
        let argument ← compileBy answer scope none argument
        return t.word ++ "(" ++ receiver ++ "," ++ argument ++ ")"
      | some _, arguments => throw (.argumentCount t arguments.length)
    | some (.map m) =>
      match target, arguments with
      | some receiver, [] | none, [receiver] => do
        checkReceiver m.word receiver
        return m.word ++ "(" ++ (← compileBy answer scope none receiver) ++ ")"
      | _, _ => throw (.operandCount m)
    | some .isNullOrEmpty =>
      match target, arguments with
      | some operand, [] | none, [operand] => do
        let operand ← compileBy answer scope none operand
        return "(" ++ operand ++ " eq null or " ++ operand ++ " eq '')"
      | _, _ => throw .nullOrEmptyOperands
    | some .isIn =>
      match target, arguments with
      | some receiver, [argument] => do
        let resolved ← resolve answer receiver
        let resolvedArgument ← resolve answer argument
        match resolvedArgument.constantItems?, resolved.constantItems? with
        | some values, _ =>
          if values.isEmpty then return "false"
          let path ← match resolved with
            | literal v => pure v.render
            | _ => compileBy answer scope none receiver
          return compileNode.membership path values
        | none, some values =>
          if values.isEmpty then return "false"
          let path ← match resolvedArgument with
            | literal v => pure v.render
            | _ => compileBy answer scope none argument
          return compileNode.membership path values
        | none, none => throw .membershipShape
      | _, _ => throw .membershipShape
termination_by structural f => f

/-- A node with its value in its place if it is a capture. -/
def resolved : Filter → Filter
  | captured c => literal c.value
  | f => f

theorem constantItems?_resolved (f : Filter) : f.resolved.constantItems? = f.constantItems? := by
  cases f <;> rfl

theorem resolve_fetch (f : Filter) :
    resolve fetch f = fetchIfCaptured f >>= fun _ => pure f.resolved := by
  cases f <;> rfl

/-- What a membership comes to when its operands are resolved. -/
def lookBy (compiled : Compiler String) (resolved : Filter) (items : List Literal) :
    Compiler String :=
  if items.isEmpty then pure "false"
  else match resolved with
    | literal v => pure (compileNode.membership v.render items)
    | _ => do
      let s ← compiled
      pure (compileNode.membership s items)

theorem compileBy_isIn (answer : Capture → Compiler Literal) (scope : List String)
    (parent : Option BinaryOp) (method : Method.ofName? name = some .isIn) :
    compileBy answer scope parent (call (some receiver) name [argument]) = (do
      let r ← resolve answer receiver
      let a ← resolve answer argument
      byItems a.constantItems? r.constantItems?
        (lookBy (compileBy answer scope none receiver) r)
        (lookBy (compileBy answer scope none argument) a)) := by
  rw [compileBy, method]
  rfl

theorem lookBy_resolved (scope : List String) (path : Filter) :
    lookBy (compileNode scope none path) path.resolved = lookFor scope path := by
  cases path <;> rfl

/-- A membership with its operands resolved first. -/
theorem compileNode_isIn_resolve (scope : List String) (parent : Option BinaryOp)
    (method : Method.ofName? name = some .isIn) :
    compileNode scope parent (call (some receiver) name [argument]) = (do
      let r ← resolve fetch receiver
      let a ← resolve fetch argument
      byItems a.constantItems? r.constantItems?
        (lookBy (compileNode scope none receiver) r)
        (lookBy (compileNode scope none argument) a)) := by
  rw [compileNode_isIn scope parent method]
  simp only [resolve_fetch, bind_assoc, pure_bind, constantItems?_resolved, lookBy_resolved]

/-! ## Two ways of fetching -/

section
variable {α β : Type} {m m' : Compiler α} {k k' : α → Compiler β} {asked asked' noted idle : List Nat}

/-- Both computations do the same as long as no slot of `asked` has been noted. -/
def Agrees (asked : List Nat) (m m' : Compiler α) : Prop :=
  ∀ log, (∀ slot ∈ asked, slot ∉ log) → m.run.run log = m'.run.run log

theorem agrees_refl (asked : List Nat) (m : Compiler α) : Agrees asked m m := fun _ _ => rfl

theorem Agrees.mono (h : Agrees asked m m') (hsub : asked ⊆ asked') : Agrees asked' m m' :=
  fun log hfresh => h log fun slot hslot => hfresh slot (hsub hslot)

theorem Agrees.bind_right (h : Agrees asked m m') (k : α → Compiler β) :
    Agrees asked (m >>= k) (m' >>= k) := by
  intro log hfresh
  rw [ExceptT.run_bind, ExceptT.run_bind, StateT.run_bind, StateT.run_bind, h log hfresh]

/-- What comes first notes no slot that what follows asks for. -/
theorem Agrees.bind (h : Agrees asked m m') (notes : Notes m' noted idle)
    (hk : ∀ a, Finds m' a → Agrees asked' (k a) (k' a)) (disjoint : noted.Disjoint asked') :
    Agrees (asked ++ asked') (m >>= k) (m' >>= k') := by
  intro log hfresh
  rw [List.forall_mem_append] at hfresh
  obtain ⟨r, new, hm, hsub, -⟩ := notes log
  rw [ExceptT.run_bind, ExceptT.run_bind, StateT.run_bind, StateT.run_bind, h log hfresh.1, hm]
  cases r with
  | error u => rfl
  | ok a =>
    refine hk a ⟨log, log ++ new, hm⟩ (log ++ new) fun slot hslot hmem => ?_
    rcases List.mem_append.mp hmem with hlog | hnew
    · exact hfresh.2 slot hslot hlog
    · exact disjoint (hsub.subset hnew) hslot

end

section
variable {answer : Capture → Compiler Literal} {asked : Capture → List Nat} {cs cs' : List Capture}
  {m m' : Compiler String} {f g : Filter}

/-- Each capture is fetched alike by `answer` as long as no slot that it asks for has been
noted, and no capture notes what another one asks for. -/
structure Starts (answer : Capture → Compiler Literal) (asked : Capture → List Nat)
    (cs : List Capture) : Prop where
  agrees : ∀ c ∈ cs, Agrees (asked c) (answer c) (fetch c)
  apart : cs.Pairwise fun c d => c.slot ∉ asked d ∧ d.slot ∉ asked c

theorem Starts.append (h : Starts answer asked (cs ++ cs')) : Starts answer asked cs ∧
    Starts answer asked cs' ∧ (slots cs).Disjoint (cs'.flatMap asked) := by
  have hagrees := List.forall_mem_append.mp h.agrees
  obtain ⟨hapart, hapart', hbetween⟩ := List.pairwise_append.mp h.apart
  refine ⟨⟨hagrees.1, hapart⟩, ⟨hagrees.2, hapart'⟩, fun slot hslot hasked => ?_⟩
  obtain ⟨c, hc, rfl⟩ := List.mem_map.mp hslot
  obtain ⟨d, hd, hasked⟩ := List.mem_flatMap.mp hasked
  exact (hbetween c hc d hd).1 hasked

theorem Starts.perm (h : Starts answer asked cs) (hperm : cs.Perm cs') : Starts answer asked cs' :=
  ⟨fun c hc => h.agrees c (hperm.mem_iff.mpr hc), hperm.pairwise h.apart fun hcd => hcd.symm⟩

theorem finds_resolve (h : Finds (resolve fetch f) g) : g = f.resolved := by
  rw [resolve_fetch] at h
  obtain ⟨_, _, h⟩ := finds_bind h
  exact (finds_pure h).symm

theorem notes_resolve (f : Filter) : Notes (resolve fetch f) (slots f.ownCaptures) [] := by
  rw [resolve_fetch]
  exact (notes_fetchIfCaptured f).bind_pure _

theorem agrees_resolve (h : Starts answer asked f.ownCaptures) :
    Agrees (f.ownCaptures.flatMap asked) (resolve answer f) (resolve fetch f) := by
  cases f with
  | captured c =>
    have hc := h.agrees c (List.mem_singleton_self c)
    rw [ownCaptures, List.flatMap_singleton]
    exact hc.bind_right _
  | _ => exact agrees_refl _ _

/-- What was fetched is written as it is, and only what is no capture is compiled. -/
theorem agrees_lookBy (h : Agrees (path.captures.flatMap asked) m m') :
    Agrees (path.innerCaptures.flatMap asked) (lookBy m path.resolved items)
      (lookBy m' path.resolved items) := by
  rw [lookBy.eq_def, lookBy.eq_def]
  split
  · exact agrees_refl _ _
  · cases path with
    | captured c => exact agrees_refl _ _
    | literal v => exact agrees_refl _ _
    | _ => exact h.bind_right _

theorem agrees_membership {scope : List String} (parent : Option BinaryOp)
    (method : Method.ofName? name = some .isIn)
    (h : Starts answer asked (call (some receiver) name [argument]).captures)
    (hr : Starts answer asked receiver.captures → Agrees (receiver.captures.flatMap asked)
      (compileBy answer scope none receiver) (compileNode scope none receiver))
    (ha : Starts answer asked argument.captures → Agrees (argument.captures.flatMap asked)
      (compileBy answer scope none argument) (compileNode scope none argument)) :
    Agrees ((call (some receiver) name [argument]).captures.flatMap asked)
      (compileBy answer scope parent (call (some receiver) name [argument]))
      (compileNode scope parent (call (some receiver) name [argument])) := by
  obtain ⟨hreceiver, hargument, -⟩ := Starts.append (captures_pair ▸ h)
  obtain ⟨hown, hrest, disjoint⟩ := (h.perm captures_membership).append
  obtain ⟨hown', -, disjoint'⟩ := hrest.append
  rw [compileBy_isIn answer scope parent method, compileNode_isIn_resolve scope parent method]
  rw [List.flatMap_append, List.flatMap_append] at disjoint
  rw [List.flatMap_append] at disjoint'
  have hsub : receiver.ownCaptures.flatMap asked ++ (argument.ownCaptures.flatMap asked ++
      (receiver.innerCaptures.flatMap asked ++ argument.innerCaptures.flatMap asked)) ⊆
        (call (some receiver) name [argument]).captures.flatMap asked := by
    rw [← List.flatMap_append, ← List.flatMap_append, ← List.flatMap_append]
    exact (captures_membership.symm.flatMap_right asked).subset
  refine Agrees.mono ?_ hsub
  refine (agrees_resolve hown).bind (notes_resolve receiver) (fun r hfound => ?_) disjoint
  obtain rfl := finds_resolve hfound
  refine (agrees_resolve hown').bind (notes_resolve argument) (fun a hfound => ?_) disjoint'
  obtain rfl := finds_resolve hfound
  rw [byItems.eq_def, byItems.eq_def]
  split
  · exact (agrees_lookBy (hr hreceiver)).mono (List.subset_append_left _ _)
  · exact (agrees_lookBy (ha hargument)).mono (List.subset_append_right _ _)
  · exact agrees_refl _ _

/-- If captures start alike, compiling by another way of fetching is compiling. -/
theorem agrees_compileBy (scope : List String) (parent : Option BinaryOp) (f : Filter)
    (h : Starts answer asked f.captures) :
    Agrees (f.captures.flatMap asked) (compileBy answer scope parent f)
      (compileNode scope parent f) := by
  fun_induction compileNode scope parent f with
  | case1 scope parent op left right ihl ihr =>
    obtain ⟨hl, hr, disjoint⟩ := Starts.append h
    rw [captures, List.flatMap_append]
    exact (ihl hl).bind (notes_compileNode _ _ _) (fun _ _ => (ihr hr).bind_right _) disjoint
  | case2 scope parent operand ih => exact (ih h).bind_right _
  | case3 | case4 | case6 => exact agrees_refl _ _
  | case5 scope parent c =>
    have hc := h.agrees c (List.mem_singleton_self c)
    rw [captures, List.flatMap_singleton]
    exact hc.bind_right _
  | case7 scope parent q collection name predicate ih =>
    show Agrees ([] ++ (capturesOf predicate).flatMap asked) _ _
    rw [compileBy]
    refine (agrees_refl [] _).bind (notes_lift _) (fun path _ => ?_) (List.disjoint_nil_left _)
    cases predicate with
    | none => exact agrees_refl _ _
    | some p =>
      cases hname : name.isEmpty with
      | true => exact agrees_refl _ _
      | false => exact (ih h).bind_right _
  | case11 scope parent name t method receiver argument ihr iha =>
    obtain ⟨hr, ha, disjoint⟩ := Starts.append (captures_pair ▸ h)
    rw [captures_pair, List.flatMap_append, compileBy, method]
    refine (agrees_refl [] _).bind (notes_checkReceiver _ _) (fun _ _ => ?_)
      (List.disjoint_nil_left _)
    exact (ihr hr).bind (notes_compileNode _ _ _) (fun _ _ => (iha ha).bind_right _) disjoint
  | case13 scope parent name m method receiver ih =>
    rw [captures_of_hasOperand (.inl ⟨rfl, rfl⟩)] at h ⊢
    rw [compileBy, method]
    exact (agrees_refl [] _).bind (notes_checkReceiver _ _) (fun _ _ => (ih h).bind_right _)
      (List.disjoint_nil_left _)
  | case14 scope parent name m method receiver ih =>
    rw [captures_of_hasOperand (.inr ⟨rfl, rfl⟩)] at h ⊢
    rw [compileBy, method]
    exact (agrees_refl [] _).bind (notes_checkReceiver _ _) (fun _ _ => (ih h).bind_right _)
      (List.disjoint_nil_left _)
  | case16 scope parent name method operand ih =>
    rw [captures_of_hasOperand (.inl ⟨rfl, rfl⟩)] at h ⊢
    rw [compileBy, method]
    exact (ih h).bind_right _
  | case17 scope parent name method operand ih =>
    rw [captures_of_hasOperand (.inr ⟨rfl, rfl⟩)] at h ⊢
    rw [compileBy, method]
    exact (ih h).bind_right _
  | case19 scope parent name method receiver argument ihr iha =>
    have hcall := agrees_membership parent method h ihr iha
    rw [compileNode, method] at hcall
    exact hcall
  | case8 _ _ _ _ _ method | case9 _ _ _ _ _ method | case10 _ _ _ _ _ method
  | case12 _ _ _ _ method | case15 _ _ _ _ _ _ method | case18 _ _ _ _ _ method
  | case20 _ _ _ _ _ method =>
    -- Both report what has no text before they fetch anything.
    rw [compileBy.eq_def]
    simp only [method]
    exact agrees_refl _ _

end

/-- The compiler is the one that fetches what each capture holds. -/
theorem compileBy_fetch (scope : List String) (parent : Option BinaryOp) (f : Filter) :
    compileBy fetch scope parent f = compileNode scope parent f := by
  have starts : Starts fetch (fun _ => []) f.captures :=
    ⟨fun _ _ => agrees_refl _ _, List.pairwise_of_forall fun _ _ => ⟨nofun, nofun⟩⟩
  have hagrees := agrees_compileBy scope parent f starts
  funext log
  exact hagrees log (by simp)

/-! ## Answers that change -/

/-- Fetches what a capture answers now: `draws` tells the answer for its slot by the number of
times it was asked before. -/
def evaluate (draws : Nat → Nat → Literal) (c : Capture) : Compiler Literal := do
  let log ← get
  set (log ++ [c.slot])
  return draws c.slot (log.count c.slot)

theorem agrees_evaluate {draws : Nat → Nat → Literal} {c : Capture}
    (first : draws c.slot 0 = c.value) : Agrees [c.slot] (evaluate draws c) (fetch c) := by
  intro log hfresh
  have hcount : log.count c.slot = 0 := List.count_eq_zero.mpr (hfresh c.slot (by simp))
  have hrun : (evaluate draws c).run.run log =
      (.ok (draws c.slot (log.count c.slot)), log ++ [c.slot]) := rfl
  rw [hrun, hcount, first]
  rfl

theorem starts_evaluate {draws : Nat → Nat → Literal} {cs : List Capture}
    (distinct : (slots cs).Nodup) (first : ∀ c ∈ cs, draws c.slot 0 = c.value) :
    Starts (evaluate draws) (fun c => [c.slot]) cs := by
  refine ⟨fun c hc => agrees_evaluate (first c hc), ?_⟩
  refine (List.pairwise_map.mp distinct).imp fun {c d} hne => ⟨?_, ?_⟩
  · simpa using hne
  · simpa using Ne.symm hne

/-- **A captured value is fetched once.**  Whether or not a filter has a text, no capture is
fetched more often than it stands there; if it has one, the captures that are not fetched are those
strictly inside what is looked for in an empty list, and all others are fetched once.  Captures may
answer anew each time: what the compiler does then is what it does with their first answers. -/
theorem evaluated_once (f : Filter) :
    f.compileLogged.2.Subperm (slots f.captures) ∧
    (∀ s, f.compile = .ok s →
      (f.compileLogged.2 ++ slots f.idleCaptures).Perm (slots f.captures)) ∧
    (compileBy fetch [] none f).run.run [] = f.compileLogged ∧
    ∀ draws : Nat → Nat → Literal, (slots f.captures).Nodup →
      (∀ c ∈ f.captures, draws c.slot 0 = c.value) →
      (compileBy (evaluate draws) [] none f).run.run [] = f.compileLogged := by
  obtain ⟨r, log, hrun, hsub, hall⟩ := notes_compileNode [] none f []
  have hlogged : f.compileLogged = (r, log) := hrun
  refine ⟨?_, fun s hs => ?_, by rw [compileBy_fetch]; rfl, fun draws distinct first => ?_⟩
  · rw [hlogged]
    exact hsub
  · rw [compile, hlogged] at hs
    rw [hlogged]
    exact hall s hs
  · exact agrees_compileBy [] none f (starts_evaluate distinct first) [] fun _ _ => List.not_mem_nil

/-- A captured text, a number that is looked for in a list, both captured, and a captured
value inside of what is looked for in an empty list. -/
def captive : Filter :=
  .binary .and (.isNullOrEmpty (.captured ⟨0, .text "a"⟩))
    (.binary .or (.call (some (.captured ⟨1, .list [.int 1, .int 2]⟩)) "in" [.captured ⟨2, .int 2⟩])
      (.call (some (.not (.captured ⟨3, .bool true⟩))) "in" [.literal (.list [])]))

/-- Answers the values of these captures first and null later on. -/
def forgetful : Nat → Nat → Literal
  | 0, 0 => .text "a"
  | 1, 0 => .list [.int 1, .int 2]
  | 2, 0 => .int 2
  | 3, 0 => .bool true
  | _, _ => .null

theorem evaluated_once_forgetful :
    (slots captive.captures).Nodup ∧
    (∀ c ∈ captive.captures, forgetful c.slot 0 = c.value) ∧
    (compileBy (evaluate forgetful) [] none captive).run.run [] =
      (.ok "('a' eq null or 'a' eq '') and (2 in (1,2) or false)", [0, 1, 2]) ∧
    slots captive.idleCaptures = [3] := by
  have distinct : (slots captive.captures).Nodup := by decide
  have first : ∀ c ∈ captive.captures, forgetful c.slot 0 = c.value := by
    simp [captive, captures, capturesOf, capturesOfAll, isNullOrEmpty, forgetful]
  refine ⟨distinct, first, ?_, rfl⟩
  rw [(evaluated_once captive).2.2.2 forgetful distinct first]
  rfl

end Filter
end OData
