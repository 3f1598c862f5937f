import OData.Proofs.Text.Cutting
import OData.Proofs.Text.Digits
import OData.Proofs.Text.Percent
import OData.Query

/-! # The parts of a URL

`UrlParts.ofText` cuts a URL where its readers do.  A fragment starts at the first
number sign, and the options at the first question mark in front of it.  Options stand
between ampersands, and an option is a name and a value around its first equals sign.

The URL of a query falls into the path and the options that it was written from
(`ofText_url`), so long as what is written without encoding holds none of these
separators.  Encoded text holds none whatever it says, and reading it gives the text
back (`url_reads_back`).
-/
namespace OData

/-! ## Texts without separators -/

/-- None of the marks stands in the text. -/
def Lacks (marks : List Char) (s : String) : Prop := ∀ c ∈ marks, c ∉ s.toList

instance (marks : List Char) (s : String) : Decidable (Lacks marks s) :=
  inferInstanceAs (Decidable (∀ c ∈ marks, _))

section
variable {marks : List Char} {s t sep : String} {parts : List String}

@[simp] theorem lacks_append : Lacks marks (s ++ t) ↔ Lacks marks s ∧ Lacks marks t := by
  simp [Lacks, not_or, forall_and]

theorem lacks_intercalate (hsep : Lacks marks sep) (h : ∀ p ∈ parts, Lacks marks p) :
    Lacks marks (String.intercalate sep parts) := by
  intro c hc hmem
  rw [String.toList_intercalate] at hmem
  rcases Text.mem_intercalate hmem with hmem | ⟨l, hl, hmem⟩
  · exact hsep c hc hmem
  · obtain ⟨p, hp, rfl⟩ := List.mem_map.mp hl
    exact h p hp c hc hmem

/-- Characters of a class that the marks are not in. -/
theorem lacks_of_forall {p : Char → Bool} (h : ∀ c ∈ s.toList, p c = true)
    (hmarks : ∀ c ∈ marks, p c = false) : Lacks marks s := by
  intro c hc hmem
  exact absurd ((h c hmem).symm.trans (hmarks c hc)) (by decide)

end

/-! ## Cutting a URL -/

/-- A URL cut at its separators. -/
structure UrlParts where
  path : String
  /-- The options, if a question mark starts them.  One without an equals sign has no
  value. -/
  options : Option (List (String × Option String))
  fragment : Option String
  deriving DecidableEq

namespace UrlParts

/-- The name and the value of an option. -/
def optionOf (piece : List Char) : String × Option String :=
  match Text.cutFirst? '=' piece with
  | some (name, value) => (String.ofList name, some (String.ofList value))
  | none => (String.ofList piece, none)

/-- The parts of the text in front of a fragment. -/
def ofFront (front : List Char) (fragment : Option String) : UrlParts :=
  match Text.cutFirst? '?' front with
  | some (path, query) =>
    ⟨String.ofList path, some ((query.splitOn '&').map optionOf), fragment⟩
  | none => ⟨String.ofList front, none, fragment⟩

/-- The parts of a URL. -/
def ofText (url : String) : UrlParts :=
  match Text.cutFirst? '#' url.toList with
  | some (front, fragment) => ofFront front (some (String.ofList fragment))
  | none => ofFront url.toList none

end UrlParts

/-- What ends the path of a URL. -/
def pathMarks : List Char := ['?', '#']

/-- What ends an option of a URL. -/
def optionMarks : List Char := ['&', '#']

section
variable {path name value : String} {options : List (String × String)}

theorem cutFirst?_of_not_mem {c : Char} {s : List Char} (h : c ∉ s) :
    Text.cutFirst? c s = none := by
  induction s with
  | nil => rfl
  | cons x s ih =>
    rw [List.mem_cons, not_or] at h
    rw [Text.cutFirst?, if_neg (Ne.symm h.1), ih h.2]
    rfl

theorem optionOf_written (h : '=' ∉ name.toList) :
    UrlParts.optionOf (name ++ "=" ++ value).toList = (name, some value) := by
  have hlist : (name ++ "=" ++ value).toList = name.toList ++ '=' :: value.toList := by simp
  rw [UrlParts.optionOf, hlist, Text.cutFirst?_joint h]
  simp

/-- A path alone. -/
theorem ofText_path (h : Lacks pathMarks path) : UrlParts.ofText path = ⟨path, none, none⟩ := by
  rw [UrlParts.ofText, cutFirst?_of_not_mem (h '#' (by decide)), UrlParts.ofFront,
    cutFirst?_of_not_mem (h '?' (by decide)), String.ofList_toList]

/-- A path and options behind it. -/
theorem ofText_written (hpath : Lacks pathMarks path) (hne : options ≠ [])
    (hoptions : ∀ o ∈ options, Lacks ('=' :: optionMarks) o.1 ∧ Lacks optionMarks o.2) :
    UrlParts.ofText (path ++ "?" ++
        String.intercalate "&" (options.map fun o => o.1 ++ "=" ++ o.2)) =
      ⟨path, some (options.map fun o => (o.1, some o.2)), none⟩ := by
  have hpiece : ∀ o ∈ options, Lacks optionMarks (o.1 ++ "=" ++ o.2) := by
    intro o ho
    obtain ⟨hname, hvalue⟩ := hoptions o ho
    rw [lacks_append, lacks_append]
    exact ⟨⟨fun c hc => hname c (List.mem_cons_of_mem _ hc), by decide⟩, hvalue⟩
  have hfragment : Lacks ['#'] (path ++ "?" ++
      String.intercalate "&" (options.map fun o => o.1 ++ "=" ++ o.2)) := by
    rw [lacks_append, lacks_append]
    refine ⟨⟨by simpa [Lacks] using hpath '#' (by decide), by decide⟩,
      lacks_intercalate (by decide) fun p hp => ?_⟩
    obtain ⟨o, ho, rfl⟩ := List.mem_map.mp hp
    simpa only [Lacks, List.forall_mem_singleton] using hpiece o ho '#' (by decide)
  have hlist :
      (path ++ "?" ++ String.intercalate "&" (options.map fun o => o.1 ++ "=" ++ o.2)).toList =
        path.toList ++ '?' ::
          ['&'].intercalate (options.map fun o => (o.1 ++ "=" ++ o.2).toList) := by
    simp [String.toList_intercalate, Function.comp_def]
  have hsplit : (['&'].intercalate (options.map fun o => (o.1 ++ "=" ++ o.2).toList)).splitOn '&' =
      options.map fun o => (o.1 ++ "=" ++ o.2).toList := by
    refine List.splitOn_intercalate _ (fun l hl => ?_) (by simpa using hne)
    obtain ⟨o, ho, rfl⟩ := List.mem_map.mp hl
    exact hpiece o ho '&' (by decide)
  rw [UrlParts.ofText, cutFirst?_of_not_mem (hfragment '#' (by decide)), UrlParts.ofFront, hlist,
    Text.cutFirst?_joint (hpath '?' (by decide))]
  dsimp only
  rw [hsplit, List.map_map, String.ofList_toList]
  refine congrArg (UrlParts.mk path · none) (congrArg some (List.map_congr_left fun o ho => ?_))
  exact optionOf_written ((hoptions o ho).1 '=' (by decide))

end

/-! ## The URL of a query -/

namespace Query

/-- The names of options, in the order in which they stand in a URL. -/
def optionNames : List String :=
  ["$filter", "$search", "$select", "$expand", "$orderby", "$skip", "$top", "$count", "$apply",
    "$compute"]

variable {marks : List Char} {q : Query} {name value : String} {present : Bool}

/-- Encoded text lacks whatever is not left alone by the encoding. -/
theorem lacks_percentEncoded (s : String)
    (h : ∀ c ∈ marks, (Text.isUnreserved c || c == '%') = false) :
    Lacks marks (percentEncoded s) := by
  refine lacks_of_forall (fun c hc => ?_) h
  rw [percentEncoded, String.toList_ofList] at hc
  simpa using Text.mem_percentEncode hc

theorem lacks_toString (n : Nat) (h : ∀ c ∈ marks, c.isDigit = false) :
    Lacks marks (toString n) := by
  refine lacks_of_forall (fun c hc => ?_) h
  exact Text.isDigit_of_mem_toDigits c (by simpa using hc)

/-- What is written without encoding holds no separator. -/
structure Separable (q : Query) : Prop where
  path : Lacks pathMarks q.path
  select : Lacks optionMarks (String.intercalate "," q.select)
  expand : Lacks optionMarks (String.intercalate "," q.expand)
  orderBy : Lacks optionMarks (SortKey.render q.orderBy)

/-- No option holds a separator. -/
theorem Separable.lacks_options (h : q.Separable) :
    ∀ o ∈ q.options, Lacks ('=' :: optionMarks) o.1 ∧ Lacks optionMarks o.2 := by
  have hif : ∀ {name present value}, Lacks ('=' :: optionMarks) name → Lacks optionMarks value →
      ∀ o ∈ optionIf name present value,
        Lacks ('=' :: optionMarks) o.1 ∧ Lacks optionMarks o.2 := by
    intro name present value hname hvalue o ho
    rw [optionIf] at ho
    split at ho
    · rw [List.mem_singleton.mp ho]
      exact ⟨hname, hvalue⟩
    · cases ho
  simp only [options, List.forall_mem_append]
  have encoded : ∀ s, Lacks optionMarks (percentEncoded s) := fun s =>
    lacks_percentEncoded s (by decide)
  have number : ∀ n : Nat, Lacks optionMarks (toString n) := fun n => lacks_toString n (by decide)
  refine ⟨⟨⟨⟨⟨⟨⟨⟨⟨hif ?_ (encoded _), hif ?_ (encoded _)⟩, hif ?_ h.select⟩, hif ?_ h.expand⟩,
    hif ?_ h.orderBy⟩, hif ?_ (number _)⟩, hif ?_ (number _)⟩, hif ?_ (by decide)⟩,
    hif ?_ (encoded _)⟩, hif ?_ (encoded _)⟩ <;> decide

/-- The URL of a query falls into its path and its options. -/
theorem Separable.ofText_url (h : q.Separable) :
    UrlParts.ofText q.url = ⟨q.path,
      if q.options.isEmpty then none else some (q.options.map fun o => (o.1, some o.2)), none⟩ := by
  cases ho : q.options with
  | nil =>
    rw [url, ho]
    exact ofText_path h.path
  | cons o os =>
    have hurl : q.url = q.path ++ "?" ++
        String.intercalate "&" (q.options.map fun o => o.1 ++ "=" ++ o.2) := by rw [url, ho]
    rw [hurl, ofText_written h.path (by simp [ho]) h.lacks_options, ho]
    rfl

theorem optionIf_names_sublist : ((optionIf name present value).map Prod.fst).Sublist [name] := by
  cases present <;> simp [optionIf]

/-- The options stand in their order, each at most once. -/
theorem options_names_sublist (q : Query) : (q.options.map Prod.fst).Sublist optionNames := by
  simp only [options, List.map_append]
  exact ((((((((optionIf_names_sublist.append optionIf_names_sublist).append
    optionIf_names_sublist).append optionIf_names_sublist).append optionIf_names_sublist).append
    optionIf_names_sublist).append optionIf_names_sublist).append optionIf_names_sublist).append
    optionIf_names_sublist).append optionIf_names_sublist

theorem lookup_optionIf (wanted : String) : (optionIf name present value).lookup wanted =
    if present && wanted == name then some value else none := by
  cases present <;> simp [optionIf]

/-- What the value of an option says when its encoding is read. -/
def decoded? (q : Query) (name : String) : Option (Option String) :=
  (q.options.lookup name).map percentDecoded?

theorem decoded?_filter (q : Query) : q.decoded? "$filter" =
    if q.filters = [] then none else some (some (combineFilters q.filters)) := by
  by_cases h : q.filters = [] <;>
    simp [decoded?, options, List.lookup_append, lookup_optionIf, percentDecoded?_percentEncoded, h]

theorem decoded?_compute (q : Query) : q.decoded? "$compute" =
    if q.compute = [] then none else some (some (String.intercalate "," q.compute)) := by
  by_cases h : q.compute = [] <;>
    simp [decoded?, options, List.lookup_append, lookup_optionIf, percentDecoded?_percentEncoded, h]

/-- The options that are left out if they are empty. -/
theorem decoded?_given (q : Query) :
    q.decoded? "$search" = (q.search.filter (· ≠ "")).map some ∧
      q.decoded? "$apply" = (q.apply.filter (· ≠ "")).map some := by
  have given : ∀ text : Option String,
      (if isGiven text then some (percentEncoded (text.getD "")) else none).map percentDecoded? =
        (text.filter (· ≠ "")).map some := by
    intro text
    cases text with
    | none => rfl
    | some s => by_cases hs : s = "" <;>
        simp [isGiven, percentDecoded?_percentEncoded, Option.filter, hs]
  rw [← given q.search, ← given q.apply]
  constructor <;> simp [decoded?, options, List.lookup_append, lookup_optionIf]

/-- **The URL of a query reads back as the query's path and options.**  It has no
fragment, and its options stand in their order, each at most once.  The options that
are encoded say just what the query says, in whatever characters. -/
theorem url_reads_back (q : Query) (h : q.Separable) :
    UrlParts.ofText q.url = ⟨q.path,
      if q.options.isEmpty then none else some (q.options.map fun o => (o.1, some o.2)), none⟩ ∧
    (q.options = [] → q.url = q.path) ∧
    (q.options.map Prod.fst).Sublist optionNames ∧ (q.options.map Prod.fst).Nodup ∧
    q.decoded? "$filter" =
      (if q.filters = [] then none else some (some (combineFilters q.filters))) ∧
    q.decoded? "$search" = (q.search.filter (· ≠ "")).map some ∧
    q.decoded? "$apply" = (q.apply.filter (· ≠ "")).map some ∧
    q.decoded? "$compute" =
      (if q.compute = [] then none else some (some (String.intercalate "," q.compute))) := by
  have hnames := q.options_names_sublist
  refine ⟨h.ofText_url, fun ho => ?_, hnames, hnames.nodup (by decide), q.decoded?_filter,
    q.decoded?_given.1, q.decoded?_given.2, q.decoded?_compute⟩
  rw [url, ho]

/-- Separators in everything that is encoded, and an equals sign in a property. -/
def mixedQuery : Query :=
  { Query.ofSet "People" with
    key := some (.single (.text "O'Neil&Co"))
    filters := ["Name eq 'a&b=c#d?'", "Größe gt 1"]
    search := some "100 %"
    select := ["Id", "A=B"]
    top := some 10
    apply := some "" }

/-- The mixed query reads back from its URL. -/
theorem url_reads_back_mixed : mixedQuery.Separable ∧
    UrlParts.ofText mixedQuery.url = ⟨"People('O''Neil&Co')",
      some [("$filter", some ("%28Name%20eq%20%27a%26b%3Dc%23d%3F%27%29%20and%20" ++
          "%28Gr%C3%B6%C3%9Fe%20gt%201%29")),
        ("$search", some "100%20%25"), ("$select", some "Id,A=B"), ("$top", some "10")], none⟩ ∧
    mixedQuery.decoded? "$filter" = some (some "(Name eq 'a&b=c#d?') and (Größe gt 1)") := by
  have h : mixedQuery.Separable :=
    ⟨by decide +kernel, by decide +kernel, by decide +kernel, by decide +kernel⟩
  obtain ⟨hparts, -, -, -, hfilter, -⟩ := url_reads_back mixedQuery h
  exact ⟨h, hparts.trans (by decide +kernel), hfilter.trans (by decide +kernel)⟩

end Query
end OData
