import OData.Proofs.Client.Headers

/-! # The requests for pages

A client asks for the first page of a query by the query, and for each later page by the
URL alone that the page before names.  The headers of the settings and the preference for
a page size go with every request.  The query's own headers go with the first one only: a
later page is asked for as if the query had none (`Client.pages_requested`).

What that changes can be read off the headers before the preference joins them, since no
two headers become the same by a preference (`Headers.prefer_inj`).
-/
namespace OData

/-! ## The first entry with a name of some kind -/

namespace Entries
variable {α : Type} {name : String} {value : α} {entries others : List (String × α)}
  {p : String → Bool}

/-- Lists that agree on all names of the kind have the same first entry with such a name. -/
theorem find?_congr (h : Ascending entries) (h' : Ascending others)
    (agree : ∀ name, p name = true → get? name entries = get? name others) :
    entries.find? (fun e => p e.1) = others.find? fun e => p e.1 := by
  have hfilter : entries.filter (fun e => p e.1) = others.filter fun e => p e.1 := by
    refine eq_of_get?_eq (h.filter _) (h'.filter _) fun name => ?_
    rw [get?_filter, get?_filter]
    cases hp : p name with
    | true => rw [agree name hp]
    | false => rfl
  rw [← List.head?_filter, ← List.head?_filter, hfilter]

/-- A value put under the first name of the kind, or under one when there was none. -/
theorem find?_put (hp : p name = true)
    (first : ∀ e, entries.find? (fun e => p e.1) = some e → e.1 = name) :
    (put name value entries).find? (fun e => p e.1) = some (name, value) := by
  induction entries with
  | nil => exact List.find?_cons_of_pos hp
  | cons e entries ih =>
    rw [put]
    split
    · exact List.find?_cons_of_pos hp
    · split
      · exact List.find?_cons_of_pos hp
      · next hne =>
        have he : ¬ p e.1 = true := fun he => hne (first e (List.find?_cons_of_pos he)).symm
        rw [List.find?_cons_of_neg (by simpa using he)]
        refine ih fun e' hfind => first e' ?_
        rwa [List.find?_cons_of_neg (by simpa using he)]

end Entries

/-! ## Preferences -/

namespace Headers
variable {h h' : Headers} {name preference : String}

theorem entryIgnoringCase?_congr
    (agree : ∀ a, sameIgnoringCase a name = true → h.get? a = h'.get? a) :
    h.entryIgnoringCase? name = h'.entryIgnoringCase? name :=
  Entries.find?_congr h.ascending h'.ascending agree

/-- The header that a preference joins, or makes, is the first one under its name in any
case, before and after. -/
theorem exists_prefer (h : Headers) (preference : String) : ∃ name value,
    h.prefer preference = h.insert name value ∧
    (h.prefer preference).entryIgnoringCase? "Prefer" = some (name, value) ∧
    (h.get? name = none ∧ value = preference ∨
      ∃ before, h.get? name = some before ∧ value = before ++ "," ++ preference) := by
  cases hfind : h.entryIgnoringCase? "Prefer" with
  | some e =>
    have hput : h.prefer preference = h.insert e.1 (e.2 ++ "," ++ preference) := by
      rw [prefer, hfind]
    have hsame : sameIgnoringCase e.1 "Prefer" = true := by simpa using List.find?_some hfind
    refine ⟨e.1, _, hput, ?_, .inr ⟨e.2, ?_, rfl⟩⟩
    · rw [hput]
      refine Entries.find?_put (p := (sameIgnoringCase · "Prefer")) hsame fun e' hfind' => ?_
      rw [Option.some.inj (hfind'.symm.trans hfind)]
    · exact NameMap.get?_eq_some_iff.mpr (List.mem_of_find?_eq_some hfind)
  | none =>
    have hput : h.prefer preference = h.insert "Prefer" preference := by rw [prefer, hfind]
    have hsame : sameIgnoringCase "Prefer" "Prefer" = true := by decide
    refine ⟨"Prefer", _, hput, ?_, .inl ⟨?_, rfl⟩⟩
    · rw [hput]
      refine Entries.find?_put (p := (sameIgnoringCase · "Prefer")) hsame fun e hfind' => ?_
      cases hfind'.symm.trans hfind
    · refine Entries.get?_eq_none fun hmem => ?_
      obtain ⟨e, he, hname⟩ := List.mem_map.mp hmem
      exact List.find?_eq_none.mp hfind e he (hname ▸ hsame)

/-- The preference that was added can be taken away again. -/
theorem prefer_inj : h.prefer preference = h'.prefer preference ↔ h = h' := by
  refine ⟨fun heq => ?_, congrArg (prefer · preference)⟩
  obtain ⟨name, value, hput, hfirst, hbefore⟩ := exists_prefer h preference
  obtain ⟨name', value', hput', hfirst', hbefore'⟩ := exists_prefer h' preference
  rw [← heq] at hput' hfirst'
  obtain ⟨rfl, rfl⟩ := Prod.mk.inj (Option.some.inj (hfirst.symm.trans hfirst'))
  have longer : ∀ before : String, before ++ "," ++ preference ≠ preference := by
    intro before hlong
    have := congrArg String.length hlong
    simp only [String.length_append] at this
    have : ",".length = 1 := rfl
    omega
  refine NameMap.ext_get? fun other => ?_
  by_cases hother : other = name
  · subst hother
    rcases hbefore with ⟨hnone, hvalue⟩ | ⟨before, hsome, hvalue⟩ <;>
      rcases hbefore' with ⟨hnone', hvalue'⟩ | ⟨before', hsome', hvalue'⟩
    · rw [hnone, hnone']
    · exact absurd (hvalue'.symm.trans hvalue) (longer before')
    · exact absurd (hvalue.symm.trans hvalue') (longer before)
    · rw [hsome, hsome']
      have hcut := hvalue.symm.trans hvalue'
      simpa [String.append_left_inj] using hcut
  · have := congrArg (NameMap.get? · other) (hput.symm.trans hput')
    simpa [hother] using this

/-- A preference changes no header with another name. -/
theorem get?_prefer_of_other (hname : sameIgnoringCase name "Prefer" = false) :
    (h.prefer preference).get? name = h.get? name := by
  obtain ⟨joined, value, hput, hfirst, -⟩ := exists_prefer h preference
  have hjoined : sameIgnoringCase joined "Prefer" = true := by simpa using List.find?_some hfirst
  have hne : name ≠ joined := by
    rintro rfl
    cases hname.symm.trans hjoined
  rw [hput, NameMap.get?_insert, if_neg hne]

/-- Headers that agree on a name do so after a preference too; if the name is `Prefer`,
they have to agree on that name in any case. -/
theorem get?_prefer_congr (agree : h.get? name = h'.get? name)
    (prefers : sameIgnoringCase name "Prefer" = true →
      ∀ a, sameIgnoringCase a "Prefer" = true → h.get? a = h'.get? a) :
    (h.prefer preference).get? name = (h'.prefer preference).get? name := by
  cases hname : sameIgnoringCase name "Prefer" with
  | false => rw [get?_prefer_of_other hname, get?_prefer_of_other hname, agree]
  | true =>
    rw [prefer, prefer, entryIgnoringCase?_congr (prefers hname)]
    cases h'.entryIgnoringCase? "Prefer" <;> simp only [NameMap.get?_insert, agree]

end Headers

namespace InSession
variable {α β : Type} {act : InSession α} {next : α → InSession β} {s s' : Session}

theorem run_bind_ok {a : α} (h : act.run.run s = (.ok a, s')) :
    (act >>= next).run.run s = (next a).run.run s' := by
  rw [ExceptT.run_bind, StateT.run_bind, h]
  rfl

theorem run_bind_error {halt : Halt} (h : act.run.run s = (.error halt, s')) :
    (act >>= next).run.run s = (.error halt, s') := by
  rw [ExceptT.run_bind, StateT.run_bind, h]
  rfl

end InSession

namespace Client
variable {c : Client} {q : Query} {n : Nat} {url url' name : String} {own : Headers}
  {page : PageResult} {s s' : Session}

/-! ## The headers of the requests -/

theorem headers_pageRequest (c : Client) (url : String) (own : Headers) :
    (c.pageRequest url own).headers = match c.settings.pageSize with
      | some n => (c.headersWith own).prefer s!"odata.maxpagesize={n}"
      | none => c.headersWith own := rfl

theorem get?_headersWith (c : Client) (own : Headers) (name : String) :
    (c.headersWith own).get? name = (own.get? name).or (c.settings.headers.get? name) :=
  NameMap.get?_union ..

/-- A header whose name is not among the own ones, and neither is `Prefer` if it is that. -/
theorem get?_pageRequest_congr (free : own.get? name = none)
    (prefers : sameIgnoringCase name "Prefer" = true →
      ∀ a, sameIgnoringCase a "Prefer" = true → own.get? a = none) :
    (c.pageRequest url ∅).headers.get? name = (c.pageRequest url' own).headers.get? name := by
  have agree : ∀ a, own.get? a = none →
      (c.headersWith ∅).get? a = (c.headersWith own).get? a := by
    intro a ha
    rw [get?_headersWith, get?_headersWith, ha]
    rfl
  rw [headers_pageRequest, headers_pageRequest]
  cases c.settings.pageSize with
  | none => exact agree name free
  | some n =>
    exact Headers.get?_prefer_congr (agree name free) fun hname a ha => agree a (prefers hname a ha)

/-- Own headers make no difference just if the settings have them too. -/
theorem headers_pageRequest_eq_iff :
    (c.pageRequest url ∅).headers = (c.pageRequest url' own).headers ↔
      ∀ name value, own.get? name = some value → c.settings.headers.get? name = some value := by
  have hjoined : (c.pageRequest url ∅).headers = (c.pageRequest url' own).headers ↔
      c.headersWith ∅ = c.headersWith own := by
    rw [headers_pageRequest, headers_pageRequest]
    cases c.settings.pageSize with
    | none => rfl
    | some n => exact Headers.prefer_inj
  rw [hjoined]
  constructor
  · intro heq name value hown
    have hname := congrArg (NameMap.get? · name) heq
    simp only [get?_headersWith, hown] at hname
    exact hname
  · intro hown
    refine NameMap.ext_get? fun name => ?_
    rw [get?_headersWith, get?_headersWith]
    cases hname : own.get? name with
    | none => rfl
    | some value => exact hown name value hname

/-! ## One page after the other -/

/-- Asks for the pages behind one, at most `n` of them. -/
def laterPages (c : Client) : Nat → PageResult → InSession (List PageResult)
  | 0, _ => return []
  | n + 1, page => do
    match ← c.nextPage page with
    | none => return []
    | some next => return next :: (← c.laterPages n next)

/-- Asks for the page at a URL and for at most `n` pages behind it. -/
def pagesFrom (c : Client) (url : String) (own : Headers) (n : Nat) :
    InSession (List PageResult) := do
  let page ← c.readPage url own
  return page :: (← c.laterPages n page)

/-- Asks for the first page of a query and for at most `n` pages behind it. -/
def browse (c : Client) (q : Query) (n : Nat) : InSession (List PageResult) := do
  let first ← c.execute q
  return first :: (← c.laterPages n first)

/-- What a client that asked for a page makes of the outcome. -/
def pageIn : Except Halt Response → Except Halt PageResult
  | .ok response => (pageOf response).mapError .failed
  | .error halt => .error halt

/-- Where the next page is, if the outcome is a page that tells. -/
def linkIn? (outcome : Except Halt Response) : Option String :=
  (pageIn outcome).toOption.bind PageResult.nextLink?

/-- The client sends a request and then, as long as the answer names a next page, the
request for that, but no more than `n` times.  These are the requests and their
outcomes. -/
inductive Browses (c : Client) : Nat → Request → Session →
    List (Request × Except Halt Response) → Session → Prop
  | last {n : Nat} {request : Request} {outcome : Except Halt Response} {s s' : Session}
      (sent : (c.send request).run.run s = (outcome, s')) (ends : n = 0 ∨ linkIn? outcome = none) :
      Browses c n request s [(request, outcome)] s'
  | more {n : Nat} {request : Request} {outcome : Except Halt Response} {url : String}
      {exchanges : List (Request × Except Halt Response)} {s s₁ s' : Session}
      (sent : (c.send request).run.run s = (outcome, s₁)) (link : linkIn? outcome = some url)
      (rest : Browses c n (c.pageRequest url ∅) s₁ exchanges s') :
      Browses c (n + 1) request s ((request, outcome) :: exchanges) s'

/-- The request that comes first, and those behind it. -/
theorem Browses.exists_cons {request : Request} {exchanges : List (Request × Except Halt Response)}
    (h : c.Browses n request s exchanges s') : ∃ outcome later,
      exchanges = (request, outcome) :: later ∧ ∀ e ∈ later, ∃ url, e.1 = c.pageRequest url ∅ := by
  induction h with
  | last => exact ⟨_, [], rfl, nofun⟩
  | @more _ _ outcome url _ _ _ _ _ _ _ ih =>
    obtain ⟨next, later, rfl, hlater⟩ := ih
    exact ⟨outcome, _, rfl, List.forall_mem_cons.mpr ⟨⟨url, rfl⟩, hlater⟩⟩

theorem run_readPage {outcome : Except Halt Response}
    (sent : (c.send (c.pageRequest url own)).run.run s = (outcome, s')) :
    (c.readPage url own).run.run s = (pageIn outcome, s') := by
  rw [readPage]
  cases outcome with
  | error halt => exact InSession.run_bind_error sent
  | ok response =>
    rw [InSession.run_bind_ok sent, pageIn]
    cases pageOf response <;> rfl

theorem laterPages_of_last (c : Client) (n : Nat) (ends : page.nextLink? = none) :
    c.laterPages n page = pure [] := by
  cases n with
  | zero => rfl
  | succ n =>
    rw [laterPages, nextPage, ends]
    rfl

theorem laterPages_of_link (c : Client) (n : Nat) (link : page.nextLink? = some url) :
    c.laterPages (n + 1) page = c.pagesFrom url ∅ n := by
  rw [laterPages, nextPage, link]
  simp only [bind_assoc, pure_bind]
  rfl

/-- A page whose outcome names no next page is the last one. -/
theorem run_pagesFrom_last {outcome : Except Halt Response}
    (sent : (c.send (c.pageRequest url own)).run.run s = (outcome, s'))
    (ends : n = 0 ∨ linkIn? outcome = none) :
    (c.pagesFrom url own n).run.run s = ((pageIn outcome).map ([·]), s') := by
  have hread := run_readPage sent
  rw [pagesFrom]
  cases hpage : pageIn outcome with
  | error halt =>
    rw [hpage] at hread
    rw [InSession.run_bind_error hread]
    rfl
  | ok page =>
    have hlater : c.laterPages n page = pure [] := by
      rcases ends with rfl | ends
      · rfl
      · rw [linkIn?, hpage] at ends
        exact laterPages_of_last c n ends
    rw [hpage] at hread
    rw [InSession.run_bind_ok hread, hlater]
    rfl

/-- A page that names a next one is followed by it and what is behind it. -/
theorem run_pagesFrom_more {outcome : Except Halt Response}
    (sent : (c.send (c.pageRequest url own)).run.run s = (outcome, s'))
    (link : linkIn? outcome = some url') :
    (c.pagesFrom url own (n + 1)).run.run s =
      ((pageIn outcome).bind fun page => ((c.pagesFrom url' ∅ n).run.run s').1.map (page :: ·),
        ((c.pagesFrom url' ∅ n).run.run s').2) := by
  have hread := run_readPage sent
  rw [linkIn?] at link
  cases hpage : pageIn outcome with
  | error halt =>
    rw [hpage] at link
    cases link
  | ok page =>
    rw [hpage] at hread link
    rw [pagesFrom, InSession.run_bind_ok hread, laterPages_of_link c n link]
    rcases hlater : (c.pagesFrom url' ∅ n).run.run s' with ⟨halt | later, s''⟩
    · exact InSession.run_bind_error hlater
    · exact InSession.run_bind_ok hlater

/-- All pages are those in the outcomes. -/
theorem run_pagesFrom (c : Client) (url : String) (own : Headers) (n : Nat) (s : Session) :
    ∃ exchanges s', c.Browses n (c.pageRequest url own) s exchanges s' ∧
      (c.pagesFrom url own n).run.run s = (exchanges.mapM fun e => pageIn e.2, s') := by
  induction n generalizing url own s with
  | zero =>
    rcases sent : (c.send (c.pageRequest url own)).run.run s with ⟨outcome, s'⟩
    refine ⟨_, s', .last sent (.inl rfl), ?_⟩
    rw [run_pagesFrom_last sent (.inl rfl), List.mapM_cons, List.mapM_nil]
    cases pageIn outcome <;> rfl
  | succ n ih =>
    rcases sent : (c.send (c.pageRequest url own)).run.run s with ⟨outcome, s₁⟩
    cases link : linkIn? outcome with
    | none =>
      refine ⟨_, s₁, .last sent (.inr link), ?_⟩
      rw [run_pagesFrom_last sent (.inr link), List.mapM_cons, List.mapM_nil]
      cases pageIn outcome <;> rfl
    | some next =>
      obtain ⟨exchanges, s', hrest, hrun⟩ := ih next ∅ s₁
      refine ⟨_, s', .more sent link hrest, ?_⟩
      rw [run_pagesFrom_more sent link, hrun, List.mapM_cons]
      cases exchanges.mapM fun e => pageIn e.2 <;> rfl

/-- **What the later pages of a query are asked with.**  The client asks for the first page
with the settings' headers, the query's own over them and the preference for a page size,
and then for one page after the other at the link that the page before names.  Each later
request is the one that the first would be if the query had no headers of its own, at
another URL.  So a header that the query does not give is the same for all pages, and the
headers are all the same just if the query gives none but those of the settings. -/
theorem pages_requested (c : Client) (q : Query) (n : Nat) (s : Session) :
    ∃ first later s', c.Browses n (c.pageRequest q.url q.headers) s (first :: later) s' ∧
      (c.browse q n).run.run s = ((first :: later).mapM fun e => pageIn e.2, s') ∧
      first.1 = c.pageRequest q.url q.headers ∧
      ∀ e ∈ later, e.1 = { c.pageRequest q.url ∅ with url := e.1.url } ∧
        (∀ name, q.headers.get? name = none →
          (sameIgnoringCase name "Prefer" = true →
            ∀ a, sameIgnoringCase a "Prefer" = true → q.headers.get? a = none) →
          e.1.headers.get? name = first.1.headers.get? name) ∧
        (e.1.headers = first.1.headers ↔
          ∀ name value, q.headers.get? name = some value →
            c.settings.headers.get? name = some value) := by
  obtain ⟨exchanges, s', hbrowses, hrun⟩ := run_pagesFrom c q.url q.headers n s
  obtain ⟨outcome, later, rfl, hlater⟩ := hbrowses.exists_cons
  refine ⟨_, later, s', hbrowses, hrun, rfl, fun e he => ?_⟩
  obtain ⟨url, hurl⟩ := hlater e he
  rw [hurl]
  exact ⟨rfl, fun name => get?_pageRequest_congr, headers_pageRequest_eq_iff⟩

/-! ## A query with a header of its own -/

/-- A query that is to be traced. -/
def tracedQuery : Query :=
  { Query.ofSet "Products" with headers := NameMap.ofList [("X-Trace", "7")] }

/-- A service with two pages of products. -/
def twoPages : Session :=
  .start (Session.turnsOf
    [⟨0, false, .ok ⟨200, ∅, "\x7b\"value\":[1],\"@odata.nextLink\":\"Products?page=2\"\x7d"⟩⟩]
    ⟨0, false, .ok ⟨200, ∅, "\x7b\"value\":[2]\x7d"⟩⟩)

/-- The second page is asked for without the header that the query has. -/
theorem pages_requested_unlike : ∃ first later,
    ((plain.browse tracedQuery 1).run.run twoPages).2.sent.map Sent.request = [first, later] ∧
    first.headers.get? "X-Trace" = some "7" ∧ later.headers.get? "X-Trace" = none ∧
    later.headers ≠ first.headers := by
  refine ⟨plain.pageRequest "Products" tracedQuery.headers, plain.pageRequest "Products?page=2" ∅,
    ?_, ?_, ?_, ?_⟩ <;> decide +kernel

end Client
end OData
