import Mathlib.Data.List.Induction
import OData.Proofs.Client.Headers
import OData.Proofs.Url.Contents

/-! # The calls of a draft

Each call tells a draft something about one topic: its key, its filters, its headers and
so on.  A call changes what the draft keeps about its own topic and nothing else, so what
a draft keeps about a topic is a fold over what the calls said about it
(`Draft.kept_tellAll`).  Of a topic with a single value the last one is kept, of a topic with
a list all of it, and of the headers the last value under each name.

So calls about different topics may change places: two sequences with the same calls
about each topic, in the same order, give the same query (`Draft.build_tellAll`).
-/
namespace OData
namespace Query

/-! ## Topics -/

/-- What a call can be about.  Text as a filter is about the filters, and a descending
order about the order. -/
inductive Topic where
  | key | cast | function | filters | search | select | expand | orderBy | skip | top | count
  | apply | compute | headers
  deriving DecidableEq

namespace Topic

/-- What a call about the topic says. -/
abbrev Said : Topic → Type
  | key => EntityKey
  | cast | search | apply | compute => String
  | function => FunctionCall
  | filters => Filter
  | select => List String
  | expand => Expansion
  | orderBy => SortKey
  | skip | top => Nat
  | count => Unit
  | headers => String × String

/-- What a draft keeps about the topic. -/
abbrev Kept : Topic → Type
  | key => Option EntityKey
  | cast | search | apply => Option String
  | function => Option FunctionCall
  | filters => List Filter
  | select | compute => List String
  | expand => List Expansion
  | orderBy => List SortKey
  | skip | top => Option Nat
  | count => Bool
  | headers => NameMap String

/-- What is kept after one more call about the topic. -/
def keep : (t : Topic) → t.Kept → t.Said → t.Kept
  | key, _, v => some v
  | cast, _, v => some v
  | function, _, v => some v
  | search, _, v => some v
  | skip, _, v => some v
  | top, _, v => some v
  | apply, _, v => some v
  | filters, vs, v => vs ++ [v]
  | expand, vs, v => vs ++ [v]
  | orderBy, vs, v => vs ++ [v]
  | compute, vs, v => vs ++ [v]
  | select, vs, v => vs ++ v
  | count, _, _ => true
  | headers, m, h => m.insert h.1 h.2

end Topic

namespace Call

/-- What a call is about. -/
def topic : Call → Topic
  | key _ => .key
  | cast _ => .cast
  | filter _ => .filters
  | search _ => .search
  | select _ => .select
  | expand _ => .expand
  | orderBy _ => .orderBy
  | skip _ => .skip
  | top _ => .top
  | count => .count
  | function _ => .function
  | apply _ => .apply
  | compute _ => .compute
  | header _ _ => .headers

/-- What a call says about its topic. -/
def said : (c : Call) → c.topic.Said
  | key v => v
  | cast v => v
  | filter v => v
  | search v => v
  | select v => v
  | expand v => v
  | orderBy v => v
  | skip v => v
  | top v => v
  | count => ()
  | function v => v
  | apply v => v
  | compute v => v
  | header name value => (name, value)

/-- What a call says about a topic, if it is about it. -/
def about? (t : Topic) (c : Call) : Option t.Said :=
  if h : c.topic = t then some (h ▸ c.said) else none

end Call

/-- What calls say about a topic, in order. -/
def saidAbout (t : Topic) (calls : List Call) : List t.Said := calls.filterMap (Call.about? t)

theorem saidAbout_cons (c : Call) (calls : List Call) :
    saidAbout c.topic (c :: calls) = c.said :: saidAbout c.topic calls :=
  List.filterMap_cons_some (dif_pos rfl)

theorem saidAbout_cons_of_ne {c : Call} {t : Topic} (h : c.topic ≠ t) (calls : List Call) :
    saidAbout t (c :: calls) = saidAbout t calls :=
  List.filterMap_cons_none (dif_neg h)

/-- What is said about a topic depends on the calls about it alone. -/
theorem saidAbout_filter (t : Topic) (calls : List Call) :
    saidAbout t (calls.filter fun c => c.topic = t) = saidAbout t calls := by
  rw [saidAbout, List.filterMap_filter]
  refine congrArg (fun f => calls.filterMap f) (funext fun c => ?_)
  by_cases h : c.topic = t
  · simp [h]
  · simp [h, Call.about?]

/-! ## What is kept of several calls -/

section
variable {α : Type}

theorem foldl_last (vs : List α) : vs.foldl (fun _ v => some v) none = vs.getLast? := by
  cases vs using List.reverseRecOn with
  | nil => rfl
  | append_singleton vs v => rw [List.foldl_concat, List.getLast?_concat]

theorem foldl_all (vs : List α) : vs.foldl (fun l v => l ++ [v]) [] = vs := by
  induction vs using List.reverseRecOn with
  | nil => rfl
  | append_singleton vs v ih => rw [List.foldl_concat, ih]

theorem foldl_joined (vs : List (List α)) : vs.foldl (fun l v => l ++ v) [] = vs.flatten := by
  induction vs using List.reverseRecOn with
  | nil => rfl
  | append_singleton vs v ih => rw [List.foldl_concat, ih, List.flatten_concat]

theorem foldl_any (vs : List α) : vs.foldl (fun _ _ => true) false = !vs.isEmpty := by
  cases vs using List.reverseRecOn with
  | nil => rfl
  | append_singleton vs v => simp

/-- The entry that is found first from the end is the last one with its name. -/
theorem get?_entries_reverse (name : String) (entries : List (String × α)) :
    Entries.get? name entries.reverse =
      (entries.filter fun e => e.1 = name).getLast?.map Prod.snd := by
  rw [List.getLast?_filter]
  generalize entries.reverse = entries
  induction entries with
  | nil => rfl
  | cons e entries ih =>
    rw [Entries.get?_cons, List.find?_cons, ih]
    by_cases h : name = e.1
    · simp [h]
    · simp [h, Ne.symm h]

end

/-! ## What a draft keeps -/

namespace Draft
variable {d d' : Draft} {c : Call} {t : Topic}

/-- What the draft keeps about a topic. -/
def kept (d : Draft) : (t : Topic) → t.Kept
  | .key => d.key
  | .cast => d.derivedType
  | .function => d.function
  | .filters => d.filters
  | .search => d.search
  | .select => d.select
  | .expand => d.expand
  | .orderBy => d.orderBy
  | .skip => d.skip
  | .top => d.top
  | .count => d.count
  | .apply => d.apply
  | .compute => d.compute
  | .headers => d.headers

theorem kept_tell (d : Draft) (c : Call) :
    (d.tell c).kept c.topic = c.topic.keep (d.kept c.topic) c.said := by
  cases c <;> rfl

/-- A call leaves alone what it is not about. -/
theorem kept_tell_of_ne (h : c.topic ≠ t) : (d.tell c).kept t = d.kept t := by
  cases c <;> cases t <;> first | rfl | exact absurd rfl h

theorem entitySet_tell (d : Draft) (c : Call) : (d.tell c).entitySet = d.entitySet := by
  cases c <;> rfl

/-- What a draft keeps about a topic comes from what the calls said about it. -/
theorem kept_tellAll (d : Draft) (calls : List Call) (t : Topic) :
    (d.tellAll calls).kept t = (saidAbout t calls).foldl t.keep (d.kept t) := by
  induction calls generalizing d with
  | nil => rfl
  | cons c calls ih =>
    calc (d.tellAll (c :: calls)).kept t
        = (saidAbout t calls).foldl t.keep ((d.tell c).kept t) := ih (d.tell c)
      _ = (saidAbout t (c :: calls)).foldl t.keep (d.kept t) := by
        by_cases h : c.topic = t
        · subst h
          rw [kept_tell, saidAbout_cons, List.foldl_cons]
        · rw [kept_tell_of_ne h, saidAbout_cons_of_ne h]

theorem entitySet_tellAll (d : Draft) (calls : List Call) :
    (d.tellAll calls).entitySet = d.entitySet := by
  induction calls generalizing d with
  | nil => rfl
  | cons c calls ih => exact (ih (d.tell c)).trans (entitySet_tell d c)

/-- A draft is its entity set and what it keeps about the topics. -/
theorem ext_kept (hset : d.entitySet = d'.entitySet) (h : ∀ t, d.kept t = d'.kept t) : d = d' := by
  cases d
  cases d'
  rw [mk.injEq]
  exact ⟨hset, h .cast, h .key, h .function, h .filters, h .search, h .select, h .expand,
    h .orderBy, h .skip, h .top, h .count, h .apply, h .compute, h .headers⟩

/-- Calls about different topics may change places. -/
theorem tellAll_congr {calls calls' : List Call}
    (same : ∀ t : Topic, calls.filter (fun c => c.topic = t) = calls'.filter (fun c => c.topic = t))
    (d : Draft) : d.tellAll calls = d.tellAll calls' := by
  refine ext_kept ?_ fun t => ?_
  · rw [entitySet_tellAll, entitySet_tellAll]
  · rw [kept_tellAll, kept_tellAll, ← saidAbout_filter t calls, same, saidAbout_filter]

end Draft

/-- The query says of each option what the calls said about it: a single value is that of
the last call, a list has those of all calls in order, and a header has the last value
under its name. -/
structure Tells (q : Query) (entitySet : String) (calls : List Call) : Prop where
  entitySet : q.entitySet = entitySet
  key : q.key = (saidAbout .key calls).getLast?
  derivedType : q.derivedType = (saidAbout .cast calls).getLast?
  function : q.function = (saidAbout .function calls).getLast?
  search : q.search = (saidAbout .search calls).getLast?
  skip : q.skip = (saidAbout .skip calls).getLast?
  top : q.top = (saidAbout .top calls).getLast?
  apply : q.apply = (saidAbout .apply calls).getLast?
  count : q.count = !(saidAbout .count calls).isEmpty
  select : q.select = (saidAbout .select calls).flatten
  orderBy : q.orderBy = saidAbout .orderBy calls
  compute : q.compute = saidAbout .compute calls
  filters : List.Forall₂ (fun (f : Filter) text => f.compile = .ok text)
    (saidAbout .filters calls) q.filters
  expand : List.Forall₂ (fun (e : Expansion) text => e.render = .ok text)
    (saidAbout .expand calls) q.expand
  headers : ∀ name, q.headers.get? name =
    ((saidAbout .headers calls).filter fun h => h.1 = name).getLast?.map Prod.snd

namespace Draft

/-- A query that is built from calls says what they said. -/
theorem tells_of_build {entitySet : String} {calls : List Call} {q : Query}
    (h : ((ofSet entitySet).tellAll calls).build = .ok q) : q.Tells entitySet calls := by
  obtain ⟨filters, expand, hfilters, hexpand, rfl⟩ := build_eq_ok_iff.mp h
  have hkept := kept_tellAll (ofSet entitySet) calls
  have hfiltersKept := (hkept .filters).trans (foldl_all _)
  have hexpandKept := (hkept .expand).trans (foldl_all _)
  constructor
  case entitySet => exact entitySet_tellAll _ _
  case key => exact (hkept .key).trans (foldl_last _)
  case derivedType => exact (hkept .cast).trans (foldl_last _)
  case function => exact (hkept .function).trans (foldl_last _)
  case search => exact (hkept .search).trans (foldl_last _)
  case skip => exact (hkept .skip).trans (foldl_last _)
  case top => exact (hkept .top).trans (foldl_last _)
  case apply => exact (hkept .apply).trans (foldl_last _)
  case count => exact (hkept .count).trans (foldl_any _)
  case select => exact (hkept .select).trans (foldl_joined _)
  case orderBy => exact (hkept .orderBy).trans (foldl_all _)
  case compute => exact (hkept .compute).trans (foldl_all _)
  case filters => exact hfiltersKept ▸ mapM_eq_ok_iff.mp hfilters
  case expand => exact hexpandKept ▸ mapM_eq_ok_iff.mp hexpand
  case headers =>
    intro name
    have hheaders := congrArg (NameMap.get? · name) (hkept .headers)
    refine hheaders.trans ((NameMap.get?_foldl_insert _ _ name).trans ?_)
    rw [get?_entries_reverse]
    exact Option.or_none

/-- **Calls about different topics may change places.**  If two sequences have the same
calls about each topic, in the same order, they give the same query or fail for the same
reason.  The query says of each option what the calls about it said. -/
theorem build_tellAll (entitySet : String) (calls calls' : List Call)
    (same : ∀ t : Topic,
      calls.filter (fun c => c.topic = t) = calls'.filter (fun c => c.topic = t)) :
    ((ofSet entitySet).tellAll calls).build = ((ofSet entitySet).tellAll calls').build ∧
    ((ofSet entitySet).tellAll calls).buildUrl = ((ofSet entitySet).tellAll calls').buildUrl ∧
    ∀ q, ((ofSet entitySet).tellAll calls).build = .ok q →
      q.Tells entitySet calls ∧ q.Tells entitySet calls' := by
  have heq := tellAll_congr same (ofSet entitySet)
  exact ⟨by rw [heq], by rw [heq], fun q hq => ⟨tells_of_build hq, tells_of_build (heq ▸ hq)⟩⟩

/-- Calls in the order of the options. -/
def orderedCalls : List Call :=
  [.filter (.compare "Stock" .gt (.int 0)), .filterText "Rating ge 3", .select ["Id"],
    .select ["Name", "Price"], .orderByDescending "Price", .orderBy (.ascendingBy "Name"), .top 5,
    .top 3, .count, .header "Prefer" "respond-async", .header "Prefer" "return=minimal"]

/-- The same calls in another order. -/
def shuffledCalls : List Call :=
  [.header "Prefer" "respond-async", .top 5, .orderByDescending "Price", .select ["Id"], .count,
    .filter (.compare "Stock" .gt (.int 0)), .orderBy (.ascendingBy "Name"),
    .header "Prefer" "return=minimal", .filterText "Rating ge 3", .top 3, .select ["Name", "Price"]]

theorem build_tellAll_shuffled :
    (∀ t : Topic, orderedCalls.filter (fun c => c.topic = t) =
      shuffledCalls.filter (fun c => c.topic = t)) ∧
    ((ofSet "Products").tellAll shuffledCalls).buildUrl = .ok ("Products?" ++
      "$filter=%28Stock%20gt%200%29%20and%20%28Rating%20ge%203%29&" ++
      "$select=Id,Name,Price&$orderby=Price desc,Name&$top=3&$count=true") := by
  have same : ∀ t : Topic, orderedCalls.filter (fun c => c.topic = t) =
      shuffledCalls.filter (fun c => c.topic = t) := fun t => by cases t <;> rfl
  obtain ⟨-, hurl, -⟩ := build_tellAll "Products" orderedCalls shuffledCalls same
  exact ⟨same, hurl.symm.trans (by decide +kernel)⟩

end Draft
end Query
end OData
