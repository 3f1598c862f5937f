import Mathlib.Data.List.Nodup
import OData.Client
import OData.Proofs.Json.Normal
import OData.Proofs.Text.Casing

/-! # The headers of requests

A client puts the headers of a request together from the settings, from the query or
operation, and from what the request itself needs.  Where these meet, names are compared
by their exact text.  So a request has one header for each name just if the names that
come from different places are spelled alike (`Demand.request_headers`).  A preference alone
joins the header that is there in any case (`Headers.has_prefer`).

An operation with a body shows what this leads to.  In a batch a content type of its own
is the only one.  Sent alone, the operation has the content type of JSON text in its
place, or beside it (`Demand.content_type_repeated`).
-/
namespace OData

namespace NameMap
variable {α : Type} {m n : NameMap α} {name : String} {value : α}

theorem get?_eq_some_iff : m.get? name = some value ↔ (name, value) ∈ m.entries :=
  Entries.get?_eq_some_iff (Entries.nodup_of_ascending m.ascending)

theorem has_entries {entries : List (String × α)} :
    (∃ value, Entries.get? name entries = some value) ↔ ∃ e ∈ entries, e.1 = name := by
  induction entries with
  | nil => simp
  | cons e entries ih =>
    rw [Entries.get?_cons]
    by_cases h : name = e.1
    · simp [h]
    · simp [h, ih, Ne.symm h]

/-- Of the entries that are put over a map the last is asked first. -/
theorem get?_foldl_insert (entries : List (String × α)) (m : NameMap α) (name : String) :
    (entries.foldl (fun m e => m.insert e.1 e.2) m).get? name =
      (Entries.get? name entries.reverse).or (m.get? name) := by
  induction entries using List.reverseRecOn with
  | nil => rfl
  | append_singleton entries e ih =>
    rw [List.foldl_append, List.foldl_cons, List.foldl_nil, get?_insert, ih, List.reverse_append,
      List.reverse_singleton, List.singleton_append, Entries.get?_cons]
    by_cases h : name = e.1
    · simp [h]
    · simp [h]

/-- Of two maps the one that is put over the other is asked first. -/
theorem get?_union (m n : NameMap α) (name : String) :
    (m.union n).get? name = (n.get? name).or (m.get? name) := by
  have hdistinct := Entries.nodup_of_ascending n.ascending
  have hreverse := Entries.get?_perm (List.reverse_perm n.entries).symm hdistinct name
  rw [union, get?_foldl_insert, ← hreverse]
  rfl

/-- There is an entry with exactly this name. -/
def Has (m : NameMap α) (name : String) : Prop := ∃ value, m.get? name = some value

theorem has_iff : m.Has name ↔ name ∈ m.entries.map Prod.fst := by
  simp [Has, get?_eq_some_iff]

theorem has_insert {other : String} : (m.insert name value).Has other ↔
    other = name ∨ m.Has other := by
  rw [Has, get?_insert]
  by_cases h : other = name
  · simp [h]
  · simp [h, Has]

end NameMap

/-! ## Names of headers -/

namespace Headers

variable {h : Headers} {a name value preference : String}

/-- No two names are the same but for case. -/
def OnePerName (h : Headers) : Prop := (h.entries.map fun e => lowercased e.1).Nodup

instance (h : Headers) : Decidable h.OnePerName := inferInstanceAs (Decidable (List.Nodup _))

/-- Names that are the same but for case are spelled alike. -/
theorem onePerName_iff : h.OnePerName ↔
    ∀ a b, h.Has a → h.Has b → sameIgnoringCase a b = true → a = b := by
  have hnames := Entries.nodup_of_ascending h.ascending
  have hmap : (h.entries.map fun e => lowercased e.1) =
      (h.entries.map Prod.fst).map lowercased := by
    rw [List.map_map]
    rfl
  rw [OnePerName, hmap]
  constructor
  · intro hone a b ha hb hsame
    exact List.inj_on_of_nodup_map hone (NameMap.has_iff.mp ha) (NameMap.has_iff.mp hb)
      (sameIgnoringCase_iff.mp hsame)
  · intro hone
    refine hnames.map_on fun a ha b hb heq => ?_
    exact hone a b (NameMap.has_iff.mpr ha) (NameMap.has_iff.mpr hb) (sameIgnoringCase_iff.mpr heq)

/-- A header is the only one with its name in any case. -/
theorem OnePerName.filter_eq (one : h.OnePerName) (hv : h.get? a = some value)
    (hsame : sameIgnoringCase a name = true) :
    h.entries.filter (fun e => sameIgnoringCase e.1 name) = [(a, value)] := by
  obtain ⟨before, after, hsplit⟩ := List.append_of_mem (NameMap.get?_eq_some_iff.mp hv)
  rw [OnePerName, hsplit, List.map_append, List.map_cons, List.nodup_middle,
    List.nodup_cons, List.mem_append, not_or] at one
  obtain ⟨⟨hbefore, hafter⟩, -⟩ := one
  have hnone : ∀ es : List (String × String), lowercased a ∉ es.map (fun e => lowercased e.1) →
      es.filter (fun e => sameIgnoringCase e.1 name) = [] := by
    intro es hes
    refine List.filter_eq_nil_iff.mpr fun e he heq => hes ?_
    refine List.mem_map.mpr ⟨e, he, ?_⟩
    rw [sameIgnoringCase_iff.mp heq, sameIgnoringCase_iff.mp hsame]
  rw [hsplit, List.filter_append, List.filter_cons_of_pos (by exact hsame), hnone before hbefore,
    hnone after hafter]
  rfl

/-! ## Preferences -/

/-- A preference joins the header that is there, or makes a new one. -/
theorem has_prefer : (h.prefer preference).Has name ↔
    h.Has name ∨ name = "Prefer" ∧ ∀ a, h.Has a → sameIgnoringCase a "Prefer" = false := by
  rw [prefer, entryIgnoringCase?]
  cases hfind : h.entries.find? fun e => sameIgnoringCase e.1 "Prefer" with
  | some e =>
    have hmem : h.Has e.1 :=
      NameMap.has_iff.mpr (List.mem_map_of_mem (List.mem_of_find?_eq_some hfind))
    have hsame : sameIgnoringCase e.1 "Prefer" = true := by simpa using List.find?_some hfind
    rw [NameMap.has_insert]
    constructor
    · rintro (rfl | hn)
      · exact .inl hmem
      · exact .inl hn
    · rintro (hn | ⟨-, hnone⟩)
      · exact .inr hn
      · rw [hnone e.1 hmem] at hsame
        cases hsame
  | none =>
    have hnone : ∀ a, h.Has a → sameIgnoringCase a "Prefer" = false := by
      intro a ha
      obtain ⟨e, he, rfl⟩ := List.mem_map.mp (NameMap.has_iff.mp ha)
      simpa using List.find?_eq_none.mp hfind e he
    rw [NameMap.has_insert]
    constructor
    · rintro (rfl | hn)
      · exact .inr ⟨rfl, hnone⟩
      · exact .inl hn
    · rintro (hn | ⟨rfl, -⟩)
      · exact .inr hn
      · exact .inl rfl

/-- A preference adds no second name. -/
theorem onePerName_prefer : (h.prefer preference).OnePerName ↔ h.OnePerName := by
  rw [onePerName_iff, onePerName_iff]
  constructor
  · intro hone a b ha hb
    exact hone a b (has_prefer.mpr (.inl ha)) (has_prefer.mpr (.inl hb))
  · intro hone a b ha hb hsame
    rcases has_prefer.mp ha with ha | ⟨rfl, hnone⟩
    · rcases has_prefer.mp hb with hb | ⟨rfl, hnone⟩
      · exact hone a b ha hb hsame
      · rw [hnone a ha] at hsame
        cases hsame
    · rcases has_prefer.mp hb with hb | ⟨rfl, -⟩
      · have hsame' := sameIgnoringCase_iff.mpr (sameIgnoringCase_iff.mp hsame).symm
        rw [hnone b hb] at hsame'
        cases hsame'
      · rfl

/-- A preference changes no header but the one it joins. -/
theorem get?_prefer (hv : h.get? name = some value) :
    (h.prefer preference).get? name = some value ∨ sameIgnoringCase name "Prefer" = true ∧
      (h.prefer preference).get? name = some (value ++ "," ++ preference) := by
  have hmem := NameMap.get?_eq_some_iff.mp hv
  rw [prefer, entryIgnoringCase?]
  cases hfind : h.entries.find? fun e => sameIgnoringCase e.1 "Prefer" with
  | some e =>
    have hvalue : h.get? e.1 = some e.2 :=
      NameMap.get?_eq_some_iff.mpr (List.mem_of_find?_eq_some hfind)
    rw [NameMap.get?_insert]
    by_cases he : name = e.1
    · subst he
      obtain rfl : e.2 = value := Option.some.inj (hvalue.symm.trans hv)
      exact .inr ⟨by simpa using List.find?_some hfind, by simp⟩
    · exact .inl (by rw [if_neg he, hv])
  | none =>
    have hne : name ≠ "Prefer" := by
      rintro rfl
      have := List.find?_eq_none.mp hfind _ hmem
      exact this (sameIgnoringCase_iff.mpr rfl)
    rw [NameMap.get?_insert, if_neg hne]
    exact .inl hv

end Headers

/-! ## Requests -/

/-- What a client can be asked for. -/
inductive Demand where
  | query (q : Query)
  | page (url : String)
  | operation (op : Operation)
  /-- An operation that the service may accept for later. -/
  | start (op : Operation)
  | batch (encoded : BatchRequest)

namespace Client

variable {α : Type}

/-- Sends one request and makes an answer of the response. -/
def ask (c : Client) (r : Request) (answer : Response → Except Failure α) : InSession α := do
  match answer (← c.send r) with
  | .ok a => return a
  | .error failure => throw (.failed failure)

/-- What is done consists of sending the request, and of an answer to the response. -/
def Sends (c : Client) (act : InSession α) (r : Request) : Prop := ∃ answer, act = c.ask r answer

end Client

namespace Demand

variable {c : Client} {d : Demand} {name value : String}

/-- The request for what is asked for. -/
def request (c : Client) : Demand → Request
  | query q => c.pageRequest q.url q.headers
  | page url => c.pageRequest url ∅
  | operation op => c.operationRequest op
  | start op =>
    { c.operationRequest op with headers := (c.operationRequest op).headers.prefer "respond-async" }
  | batch encoded => c.batchRequest encoded

/-- The one request that the client sends for what it is asked for. -/
def Answers (c : Client) (d : Demand) : Prop :=
  match d with
  | query q => c.Sends (c.execute q) (d.request c)
  | page url => c.Sends (c.fetchPage url) (d.request c)
  | operation op => c.Sends (c.perform op) (d.request c)
  | start op => ∀ expects, c.Sends (c.start op expects) (d.request c)
  | batch encoded => ∀ boundary fresh b, BatchRequest.encode boundary fresh b = .ok encoded →
      c.Sends (c.performBatch boundary fresh b) (d.request c)

theorem answers (c : Client) (d : Demand) : d.Answers c := by
  cases d with
  | query q =>
    refine ⟨Client.pageOf, ?_⟩
    rw [Client.execute, Client.readPage, Client.ask]
    refine bind_congr fun response => ?_
    cases Client.pageOf response <;> rfl
  | page url =>
    refine ⟨Client.pageOf, ?_⟩
    rw [Client.fetchPage, Client.readPage, Client.ask]
    refine bind_congr fun response => ?_
    cases Client.pageOf response <;> rfl
  | operation op =>
    refine ⟨Client.resultOf op, ?_⟩
    rw [Client.perform, Client.ask]
    refine bind_congr fun response => ?_
    cases Client.resultOf op response <;> rfl
  | start op =>
    intro expects
    refine ⟨fun response => (Monitor.ofResponse? c.settings response expects).elim
      ((Client.resultOf op response).map .completed) fun monitor => .ok (.accepted monitor), ?_⟩
    rw [Client.start, Client.ask]
    refine bind_congr fun response => ?_
    cases Monitor.ofResponse? c.settings response expects with
    | some monitor => rfl
    | none => cases Client.resultOf op response <;> rfl
  | batch encoded =>
    intro boundary fresh b hencode
    refine ⟨Client.batchResponseOf b, ?_⟩
    rw [Client.performBatch, hencode, Client.ask]
    refine bind_congr fun response => ?_
    cases Client.batchResponseOf b response <;> rfl

/-! ## Where the headers come from -/

/-- The headers of the query or operation. -/
def own : Demand → Headers
  | query q => q.headers
  | operation op | start op => op.headers
  | page _ | batch _ => ∅

/-- The headers that the request has whatever other headers there are. -/
def fixed : Demand → List (String × String)
  | operation op | start op =>
    (op.ifMatch.map fun etag => ("If-Match", etag)).toList ++
      if op.kind.hasBody then [("Content-Type", "application/json")] else []
  | batch encoded => [("Content-Type", encoded.contentType)]
  | query _ | page _ => []

/-- The preference of the request. -/
def preference? (c : Client) : Demand → Option String
  | query _ | page _ => c.settings.pageSize.map fun n => s!"odata.maxpagesize={n}"
  | start _ => some "respond-async"
  | operation _ | batch _ => none

/-- The operation that is sent alone. -/
def operation? : Demand → Option Operation
  | operation op | start op => some op
  | _ => none

/-- The headers of the request before the preference joins them. -/
def joined (c : Client) (d : Demand) : Headers :=
  d.fixed.foldl (fun h e => h.insert e.1 e.2) (c.headersWith d.own)

theorem headers_request (c : Client) (d : Demand) : (d.request c).headers =
    match d.preference? c with
    | some preference => (d.joined c).prefer preference
    | none => d.joined c := by
  have hunion : ∀ h : Headers, NameMap.union h ∅ = h := fun h => rfl
  have hoperation : ∀ op, (c.operationRequest op).headers = (operation op).joined c := by
    intro op
    rw [Client.operationRequest, joined, fixed, own]
    cases op.ifMatch <;> cases op.kind.hasBody <;> rfl
  cases d with
  | query q =>
    rw [request, Client.pageRequest, preference?]
    cases c.settings.pageSize <;> rfl
  | page url =>
    rw [request, Client.pageRequest, preference?]
    cases c.settings.pageSize <;> rfl
  | operation op => exact hoperation op
  | start op => exact congrArg (Headers.prefer · "respond-async") (hoperation op)
  | batch encoded => rfl

theorem get?_joined (c : Client) (d : Demand) (name : String) :
    (d.joined c).get? name = (Entries.get? name d.fixed.reverse).or
      ((d.own.get? name).or (c.settings.headers.get? name)) := by
  rw [joined, NameMap.get?_foldl_insert, Client.headersWith, NameMap.get?_union]

theorem has_joined : (d.joined c).Has name ↔
    (c.settings.headers.Has name ∨ d.own.Has name) ∨ ∃ f ∈ d.fixed, f.1 = name := by
  have hfixed : (∃ value, Entries.get? name d.fixed.reverse = some value) ↔
      ∃ f ∈ d.fixed, f.1 = name := by
    simp [NameMap.has_entries]
  rw [← hfixed, NameMap.Has, get?_joined, NameMap.Has, NameMap.Has]
  cases Entries.get? name d.fixed.reverse <;> cases d.own.get? name <;> simp

theorem onePerName_request : (d.request c).headers.OnePerName ↔ (d.joined c).OnePerName := by
  rw [headers_request]
  cases d.preference? c with
  | some preference => exact Headers.onePerName_prefer
  | none => rfl

/-- The names that come from different places are spelled alike. -/
structure SpelledAlike (c : Client) (d : Demand) : Prop where
  own : ∀ a b, c.settings.headers.Has a → d.own.Has b → sameIgnoringCase a b = true → a = b
  fixed : ∀ a, c.settings.headers.Has a ∨ d.own.Has a → ∀ f ∈ d.fixed,
    sameIgnoringCase a f.1 = true → a = f.1

/-- The headers that a request has in any case have different names. -/
theorem eq_of_fixed (d : Demand) : ∀ f ∈ d.fixed, ∀ g ∈ d.fixed,
    sameIgnoringCase f.1 g.1 = true → f.1 = g.1 := by
  have hnames : ∀ f ∈ d.fixed, f.1 ∈ ["If-Match", "Content-Type"] := by
    intro f hf
    cases d with
    | query | page => cases hf
    | batch => rw [List.mem_singleton.mp hf]; simp
    | operation op | start op =>
      rcases List.mem_append.mp hf with hf | hf
      · obtain ⟨etag, -, rfl⟩ := Option.map_eq_some_iff.mp (Option.mem_toList.mp hf)
        simp
      · split at hf
        · rw [List.mem_singleton.mp hf]
          simp
        · cases hf
  intro f hf g hg
  exact (by decide : ∀ a ∈ ["If-Match", "Content-Type"], ∀ b ∈ ["If-Match", "Content-Type"],
    sameIgnoringCase a b = true → a = b) _ (hnames f hf) _ (hnames g hg)

theorem onePerName_joined (settings : c.settings.headers.OnePerName) (own : d.own.OnePerName) :
    (d.joined c).OnePerName ↔ d.SpelledAlike c := by
  have hswap : ∀ {a b}, sameIgnoringCase a b = true → sameIgnoringCase b a = true := fun h =>
    sameIgnoringCase_iff.mpr (sameIgnoringCase_iff.mp h).symm
  rw [Headers.onePerName_iff] at settings own ⊢
  constructor
  · intro hone
    refine ⟨fun a b ha hb => ?_, fun a ha f hf => ?_⟩
    · exact hone a b (has_joined.mpr (.inl (.inl ha))) (has_joined.mpr (.inl (.inr hb)))
    · exact hone a f.1 (has_joined.mpr (.inl ha)) (has_joined.mpr (.inr ⟨f, hf, rfl⟩))
  · intro hspelled a b ha hb hsame
    rcases has_joined.mp ha with ha | ⟨f, hf, rfl⟩
    · rcases has_joined.mp hb with hb | ⟨g, hg, rfl⟩
      · rcases ha with ha | ha <;> rcases hb with hb | hb
        · exact settings a b ha hb hsame
        · exact hspelled.own a b ha hb hsame
        · exact (hspelled.own b a hb ha (hswap hsame)).symm
        · exact own a b ha hb hsame
      · exact hspelled.fixed a ha g hg hsame
    · rcases has_joined.mp hb with hb | ⟨g, hg, rfl⟩
      · exact (hspelled.fixed b hb f hf (hswap hsame)).symm
      · exact d.eq_of_fixed f hf g hg hsame

/-! ## What becomes of a header -/

/-- A header that stands under its name before the preference joins it. -/
theorem get?_request (hv : (d.joined c).get? name = some value) :
    (d.request c).headers.get? name = some value ∨ sameIgnoringCase name "Prefer" = true ∧
      ∃ preference ∈ d.preference? c,
        (d.request c).headers.get? name = some (value ++ "," ++ preference) := by
  rw [headers_request]
  cases d.preference? c with
  | none => exact .inl hv
  | some preference =>
    rcases Headers.get?_prefer hv with h | ⟨hname, h⟩
    · exact .inl h
    · exact .inr ⟨hname, preference, rfl, h⟩

/-- A header of the query or operation stands in the request, unless the request itself
needs one under this name. -/
theorem get?_request_own (hv : d.own.get? name = some value) (free : ∀ f ∈ d.fixed, f.1 ≠ name) :
    (d.request c).headers.get? name = some value ∨ sameIgnoringCase name "Prefer" = true ∧
      ∃ preference ∈ d.preference? c,
        (d.request c).headers.get? name = some (value ++ "," ++ preference) := by
  refine get?_request ?_
  have hnone : Entries.get? name d.fixed.reverse = none := by
    refine Entries.get?_eq_none fun hmem => ?_
    obtain ⟨f, hf, rfl⟩ := List.mem_map.mp hmem
    exact free f (List.mem_reverse.mp hf) rfl
  rw [get?_joined, hnone, hv]
  rfl

/-- An operation with a body that is sent alone is said to be JSON text. -/
theorem get?_content_type {op : Operation} (hd : d.operation? = some op)
    (body : op.kind.hasBody = true) :
    (d.request c).headers.get? "Content-Type" = some "application/json" := by
  have hjoined : (d.joined c).get? "Content-Type" = some "application/json" := by
    have hfixed : d.fixed = (op.ifMatch.map fun etag => ("If-Match", etag)).toList ++
        [("Content-Type", "application/json")] := by
      cases d with
      | operation | start =>
        obtain rfl := Option.some.inj hd
        rw [fixed, if_pos body]
      | _ => cases hd
    rw [get?_joined, hfixed, List.reverse_append, List.reverse_singleton, List.singleton_append,
      Entries.get?_cons]
    rfl
  rcases get?_request hjoined with h | ⟨h, -⟩
  · exact h
  · cases h

end Demand

namespace BatchRequest

/-- In a batch, a content type of the operation's own is the only one. -/
theorem filter_requestHeaders {op : Operation} {name value : String}
    (own : op.headers.OnePerName) (hv : op.headers.get? name = some value)
    (hname : sameIgnoringCase name "Content-Type" = true) :
    (requestHeaders op).filter (fun h => sameIgnoringCase h.1 "Content-Type") =
      [(name, value)] := by
  have hhas : op.headers.hasIgnoringCase "content-type" = true := by
    rw [Headers.hasIgnoringCase, Headers.entryIgnoringCase?, List.find?_isSome]
    refine ⟨(name, value), NameMap.get?_eq_some_iff.mp hv, ?_⟩
    rw [sameIgnoringCase_iff] at hname ⊢
    rw [hname]
    decide
  have hmatch : ((op.ifMatch.map fun etag => ("If-Match", etag)).toList).filter
      (fun h => sameIgnoringCase h.1 "Content-Type") = [] := by
    cases op.ifMatch with
    | none => rfl
    | some etag => simp [show sameIgnoringCase "If-Match" "Content-Type" = false from by decide]
  rw [requestHeaders, hhas, List.filter_append, List.filter_append, hmatch,
    own.filter_eq hv hname]
  simp

end BatchRequest

/-- **What headers a request has.**  Each call sends one request.  If neither the
settings nor the query or operation repeat a name, the request repeats none just if the
names that come from different places are spelled alike.  A header of the query or
operation takes the place of the settings' header with exactly its name.  A content type
that an operation with a body brings along is the only one in a batch, while alone the
operation is sent as JSON text. -/
theorem Demand.request_headers (c : Client) (d : Demand) (settings : c.settings.headers.OnePerName)
    (own : d.own.OnePerName) :
    d.Answers c ∧ ((d.request c).headers.OnePerName ↔ d.SpelledAlike c) ∧
    (∀ name value, d.own.get? name = some value → (∀ f ∈ d.fixed, f.1 ≠ name) →
      (d.request c).headers.get? name = some value ∨ sameIgnoringCase name "Prefer" = true ∧
        ∃ preference ∈ d.preference? c,
          (d.request c).headers.get? name = some (value ++ "," ++ preference)) ∧
    ∀ op ∈ d.operation?, op.kind.hasBody = true →
      (d.request c).headers.get? "Content-Type" = some "application/json" ∧
      ∀ name value, op.headers.get? name = some value →
        sameIgnoringCase name "Content-Type" = true →
        (BatchRequest.requestHeaders op).filter
          (fun h => sameIgnoringCase h.1 "Content-Type") = [(name, value)] := by
  have hone : (d.request c).headers.OnePerName ↔ d.SpelledAlike c :=
    Demand.onePerName_request.trans (Demand.onePerName_joined settings own)
  refine ⟨d.answers c, hone, fun name value => Demand.get?_request_own, fun op hop body => ?_⟩
  refine ⟨Demand.get?_content_type hop body, fun name value hv hname => ?_⟩
  have hown : d.own = op.headers := by
    cases d with
    | operation | start => exact congrArg Operation.headers (Option.some.inj hop)
    | _ => cases hop
  exact BatchRequest.filter_requestHeaders (hown ▸ own) hv hname

/-! ## Two operations -/

/-- A client with the settings of the start. -/
def Client.plain : Client := ⟨.default, Session.send⟩

/-- A change that asks for an answer in another form than the settings. -/
def Operation.rename : Operation :=
  { Operation.ofKind "1" .update "Products(7)" with
    body := some (.object [("Name", .text "Pen")]), etag := some "W/5"
    headers := NameMap.ofList [("Accept", "text/csv"), ("prefer", "return=minimal")] }

/-- The answer comes in the form that the change asks for, and all names are different. -/
theorem Demand.request_headers_rename :
    Client.plain.settings.headers.OnePerName ∧ Operation.rename.headers.OnePerName ∧
    (Demand.start .rename).SpelledAlike Client.plain ∧
    ((Demand.start .rename).request Client.plain).headers.get? "Accept" = some "text/csv" := by
  have hsettings : Client.plain.settings.headers.OnePerName := by decide +kernel
  have hown : Operation.rename.headers.OnePerName := by decide +kernel
  obtain ⟨-, hone, htakes, -⟩ :=
    Demand.request_headers Client.plain (.start .rename) hsettings hown
  refine ⟨hsettings, hown, hone.mp (by decide +kernel), ?_⟩
  rcases htakes "Accept" "text/csv" (by decide +kernel) (by decide +kernel) with h | ⟨h, -⟩
  · exact h
  · revert h
    decide

/-- A new entity with a content type of its own. -/
def Operation.note : Operation :=
  { Operation.create "1" "Notes" (.object []) with
    headers := NameMap.ofList [("content-type", "application/json;odata.metadata=minimal")] }

/-- Sent alone, the new entity has two content types; in a batch it has its own. -/
theorem Demand.content_type_repeated :
    Client.plain.settings.headers.OnePerName ∧ Operation.note.headers.OnePerName ∧
    ¬ ((Demand.operation .note).request Client.plain).headers.OnePerName ∧
    ((Demand.operation .note).request Client.plain).headers.entries.filter
        (fun h => sameIgnoringCase h.1 "Content-Type") =
      [("Content-Type", "application/json"),
        ("content-type", "application/json;odata.metadata=minimal")] ∧
    (BatchRequest.requestHeaders .note).filter (fun h => sameIgnoringCase h.1 "Content-Type") =
      [("content-type", "application/json;odata.metadata=minimal")] := by
  refine ⟨?_, ?_, ?_, ?_, ?_⟩ <;> decide +kernel

end OData
