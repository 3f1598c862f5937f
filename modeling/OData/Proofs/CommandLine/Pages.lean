import OData.Proofs.Client.Paging
import OData.Proofs.CommandLine.Exit

/-! # All pages of a query

A command that asks for all pages of a query reads the page at the URL of the query and
then, page by page, the page at the next link, up to one that has none.  It is done just
if each page could be read and the first was not refused, and then it prints the records
of all pages together; else it prints none (`runUrl_allPages`).

A later page that was refused is taken for one without records and without a next link.
So the last page may be one that was refused, and the records are incomplete although
the command is done (`runUrl_refused_page`).
-/
namespace OData

/-! ## Chains of pages -/

namespace Client
variable {c : Client} {url : String} {own : Headers} {page : PageResult} {later : List PageResult}
  {s s' : Session}

/-- A response to the request for the page at a URL arrived, and it is the page. -/
def Fetched (c : Client) (url : String) (own : Headers) (s : Session) (page : PageResult)
    (s' : Session) : Prop :=
  ∃ response, (c.send (c.pageRequest url own)).run.run s = (.ok response, s') ∧
    pageOf response = .ok page

/-- The pages behind a page are read one after the other, each at the next link of the
one before, up to one that has none. -/
inductive Follows (c : Client) : PageResult → Session → List PageResult → Session → Prop
  | last {page : PageResult} {s : Session} (ends : page.nextLink? = none) : Follows c page s [] s
  | more {page next : PageResult} {url : String} {later : List PageResult} {s s' s'' : Session}
      (link : page.nextLink? = some url) (fetched : c.Fetched url ∅ s next s')
      (rest : Follows c next s' later s'') : Follows c page s (next :: later) s''

/-- The pages of a query are read: a first one, which is not refused, and those behind
it. -/
def ReadsPages (c : Client) (q : Query) (s : Session) (pages : List PageResult) (s' : Session) :
    Prop :=
  ∃ first later s₁, pages = first :: later ∧ c.Fetched q.url q.headers s first s₁ ∧
    isSuccessStatus first.status = true ∧ c.Follows first s₁ later s'

/-- A page is refused just if the status of its response is no success. -/
theorem Fetched.isSuccess (h : c.Fetched url own s page s') :
    page.isSuccess = isSuccessStatus page.status := by
  obtain ⟨response, -, h⟩ := h
  rw [pageOf] at h
  cases hsuccess : response.isSuccess with
  | false =>
    simp only [hsuccess, Bool.not_false, if_true] at h
    obtain rfl := Except.ok.inj h
    exact hsuccess.symm
  | true =>
    simp only [hsuccess, Bool.not_true, Bool.false_eq_true, if_false] at h
    split at h
    · obtain rfl := Except.ok.inj h
      exact hsuccess.symm
    · split at h
      · obtain rfl := Except.ok.inj h
        exact hsuccess.symm
      · cases h

theorem run_readPage_eq_ok : (c.readPage url own).run.run s = (.ok page, s') ↔
    c.Fetched url own s page s' := by
  constructor
  · intro h
    rcases hsend : (c.send (c.pageRequest url own)).run.run s with ⟨halt | response, s₁⟩
    · cases (run_readPage hsend).symm.trans h
    · have h := (run_readPage hsend).symm.trans h
      rw [pageIn] at h
      cases hpage : pageOf response with
      | error failure =>
        rw [hpage] at h
        cases h
      | ok page' =>
        rw [hpage] at h
        cases h
        exact ⟨response, hsend, hpage⟩
  · rintro ⟨response, hsend, hpage⟩
    rw [run_readPage hsend, pageIn, hpage]
    rfl

/-- A page with a next link was not refused. -/
theorem isSuccess_of_nextLink? (h : page.nextLink? = some url) : page.isSuccess = true := by
  cases page with
  | success => rfl
  | refused => cases h

/-- No page but the last was refused. -/
theorem Follows.isSuccessStatus (h : c.Follows page s later s')
    (hpage : page.isSuccess = OData.isSuccessStatus page.status) :
    ∀ p ∈ (page :: later).dropLast, OData.isSuccessStatus p.status = true := by
  induction h with
  | last => nofun
  | more link fetched _ ih =>
    rw [List.dropLast_cons_of_ne_nil (by simp), List.forall_mem_cons]
    exact ⟨hpage.symm.trans (isSuccess_of_nextLink? link), ih fetched.isSuccess⟩

end Client

namespace CommandLine
open Run

/-- The records of several pages together. -/
def recordsOf (pages : List PageResult) : List Json :=
  pages.flatMap fun page => page.records?.getD []

section
variable {α β : Type} {act : Run α} {next : α → Run β} {reasons : List Reason} {p p' : Printed}
  {s s' : Session} {c : Client} {page : PageResult} {url : String} {n : Nat}

/-- Nothing follows something that failed. -/
theorem run_bind_of_error (h : (act.run.run p).run s = ((.error reasons, p'), s')) :
    ((act >>= next).run.run p).run s = ((.error reasons, p'), s') := by
  have h : act.run p s = ((.error reasons, p'), s') := h
  change (ExceptT.bindCont next (act.run p s).1.1).run (act.run p s).1.2 (act.run p s).2 = _
  rw [h]
  rfl

/-- What was asked in the session and halted. -/
theorem run_ask_of_error {act : InSession α} {halt : Halt} (context : List Reason) (p : Printed)
    (h : act.run.run s = (.error halt, s')) :
    ((ask context act).run.run p).run s = ((.error (context ++ [reasonOf halt]), p), s') := by
  have lifted : (((act.run : StateM Session _) : Run (Except Halt α)).run.run p).run s =
      ((.ok (act.run.run s).1, p), (act.run.run s).2) := rfl
  rw [h] at lifted
  rw [ask, run_bind_of_ok lifted]
  rfl

/-! ## One page after the other -/

theorem run_laterRecords_last (ends : page.nextLink? = none) :
    ((laterRecords c (n + 1) page).run.run p).run s = ((.ok [], p), s) := by
  have hnext : (c.nextPage page).run.run s = (.ok none, s) := by
    rw [Client.nextPage, ends]
    rfl
  rw [laterRecords, run_bind_of_ok (run_ask [] p hnext)]
  rfl

/-- A page that is read at the next link is followed by what is behind it. -/
theorem laterRecords_fetched {next : PageResult} (link : page.nextLink? = some url)
    (fetched : c.Fetched url ∅ s next s') :
    ((laterRecords c (n + 1) page).run.run p).run s =
      (((laterRecords c n next) >>= fun later =>
        pure (next.records?.getD [] ++ later) : Run (List Json)).run.run p).run s' := by
  have hnext : (c.nextPage page).run.run s = (.ok (some next), s') := by
    rw [Client.nextPage, link]
    dsimp only
    rw [ExceptT.run_bind, StateT.run_bind, Client.fetchPage, Client.run_readPage_eq_ok.mpr fetched]
    rfl
  rw [laterRecords, run_bind_of_ok (run_ask [] p hnext)]

/-- A page that cannot be read ends the loop. -/
theorem laterRecords_halt {halt : Halt} (link : page.nextLink? = some url)
    (h : (c.readPage url ∅).run.run s = (.error halt, s')) :
    ((laterRecords c (n + 1) page).run.run p).run s = ((.error [reasonOf halt], p), s') := by
  have hnext : (c.nextPage page).run.run s = (.error halt, s') := by
    rw [Client.nextPage, link]
    dsimp only
    rw [ExceptT.run_bind, StateT.run_bind, Client.fetchPage, h]
    rfl
  rw [laterRecords, run_bind_of_error (run_ask_of_error [] p hnext)]
  rfl

/-- The loop finds the records of the pages behind a page, or it fails, and it prints
nothing. -/
theorem run_laterRecords (c : Client) (n : Nat) (page : PageResult) (p : Printed) (s : Session) :
    (∃ later s', c.Follows page s later s' ∧ later.length < n ∧
      ((laterRecords c n page).run.run p).run s = ((.ok (recordsOf later), p), s')) ∨
    (∀ later s', c.Follows page s later s' → n ≤ later.length) ∧
      ∃ reasons s', ((laterRecords c n page).run.run p).run s = ((.error reasons, p), s') := by
  induction n generalizing page s with
  | zero => exact .inr ⟨fun _ _ _ => Nat.zero_le _, [.unfinished], s, rfl⟩
  | succ n ih =>
    cases link : page.nextLink? with
    | none => exact .inl ⟨[], s, .last link, Nat.succ_pos n, run_laterRecords_last link⟩
    | some url =>
      rcases hread : (c.readPage url ∅).run.run s with ⟨halt | next, s₁⟩
      · refine .inr ⟨fun later s' h => ?_, _, _, laterRecords_halt link hread⟩
        cases h with
        | last ends => cases link.symm.trans ends
        | more link' fetched _ =>
          obtain rfl := Option.some.inj (link.symm.trans link')
          cases hread.symm.trans (Client.run_readPage_eq_ok.mpr fetched)
      · have fetched := Client.run_readPage_eq_ok.mp hread
        rcases ih next s₁ with ⟨later, s', rest, hlength, hrun⟩ | ⟨hlength, reasons, s', hrun⟩
        · refine .inl ⟨next :: later, s', .more link fetched rest, Nat.succ_lt_succ hlength, ?_⟩
          rw [laterRecords_fetched link fetched, run_bind_of_ok hrun]
          rfl
        · refine .inr ⟨fun later s'' h => ?_, reasons, s', ?_⟩
          · cases h with
            | last ends => cases link.symm.trans ends
            | more link' fetched' rest =>
              obtain rfl := Option.some.inj (link.symm.trans link')
              cases hread.symm.trans (Client.run_readPage_eq_ok.mpr fetched')
              exact Nat.succ_le_succ (hlength _ _ rest)
          · rw [laterRecords_fetched link fetched, run_bind_of_error hrun]

end

/-! ## The whole command -/

section
variable {w : World} {settings : Settings} {a : UrlArguments} {q : Query} {p : Printed}
  {s s' : Session} {c : Client} {first : PageResult}

/-- What is printed when the first page is asked for. -/
def noteUrl (w : World) (q : Query) (p : Printed) : Printed :=
  { p with notes := p.notes ++ (w.paint .bold "GET" ++ " " ++ w.paint .dimmed q.url) ++ "\n" }

/-- What a command does with the first page of a query. -/
def printPages (w : World) (a : UrlArguments) (c : Client) (first : PageResult) : Run Unit := do
  if !first.isSuccess then
    let error := first.error?.getD ""
    throw [.text s!"Query failed with HTTP {first.status}: {error}"]
  let later ← if a.allPages then laterRecords c w.looks first else pure []
  printLine (a.format.render (.array (first.records?.getD [] ++ later)))
  match first.count? with
  | some n => noteLine (w.paint .bold "Total count:" ++ s!" {n}")
  | none => return

/-- A command that sends its query reads the page at its URL first. -/
theorem run_runUrl (send : a.send = true) (built : a.draft.build = .ok q) :
    ((runUrl w settings a).run.run p).run s =
      ((ask [.text "Failed to execute query"]
          ((Client.connect w.transport settings).readPage q.url q.headers) >>=
        printPages w a (Client.connect w.transport settings)).run.run (noteUrl w q p)).run s := by
  have hquery : ((require "Failed to compile query"
      (a.draft.build.mapError (·.toFailure))).run.run p).run s = ((.ok q, p), s) := by
    rw [built]
    rfl
  rw [runUrl, run_bind_of_ok hquery, send]
  rfl

theorem run_printPages_refused (refused : first.isSuccess = false) :
    ∃ reasons, ((printPages w a c first).run.run p).run s = ((.error reasons, p), s) := by
  rw [printPages, refused]
  exact ⟨_, rfl⟩

/-- The records of the first page and those behind it are printed in one piece. -/
theorem run_printPages (all : a.allPages = true) (success : first.isSuccess = true)
    {later : List Json}
    (h : ((laterRecords c w.looks first).run.run p).run s = ((.ok later, p), s')) :
    ∃ p', ((printPages w a c first).run.run p).run s = ((.ok (), p'), s') ∧
      p'.output = p.output ++
        (a.format.render (.array (first.records?.getD [] ++ later)) ++ "\n") := by
  rw [printPages, success, all]
  simp only [Bool.not_true, Bool.false_eq_true, if_false, if_true]
  rw [run_bind_of_ok h]
  cases first.count? <;> exact ⟨_, rfl, rfl⟩

theorem run_printPages_of_error (all : a.allPages = true) (success : first.isSuccess = true)
    {reasons : List Reason}
    (h : ((laterRecords c w.looks first).run.run p).run s = ((.error reasons, p), s')) :
    ((printPages w a c first).run.run p).run s = ((.error reasons, p), s') := by
  rw [printPages, success, all]
  simp only [Bool.not_true, Bool.false_eq_true, if_false, if_true]
  rw [run_bind_of_error h]

/-- **A command for all pages prints the records of all pages, or it fails and prints
none.**  It fails just if the pages could not be read, or the first was refused, or there
are more than it may read.  Of the pages that it read only the last may be one that was
refused. -/
theorem runUrl_allPages (send : a.send = true) (all : a.allPages = true)
    (built : a.draft.build = .ok q) :
    (∃ pages s', (Client.connect w.transport settings).ReadsPages q s pages s' ∧
      pages.length ≤ w.looks ∧ (∀ page ∈ pages.dropLast, isSuccessStatus page.status = true) ∧
      ∃ p', ((runUrl w settings a).run.run p).run s = ((.ok (), p'), s') ∧
        p'.output = p.output ++ (a.format.render (.array (recordsOf pages)) ++ "\n")) ∨
    (∀ pages s', (Client.connect w.transport settings).ReadsPages q s pages s' →
      w.looks < pages.length) ∧
      ∃ reasons p' s', ((runUrl w settings a).run.run p).run s = ((.error reasons, p'), s') ∧
        p'.output = p.output := by
  rw [run_runUrl send built]
  generalize Client.connect w.transport settings = c
  rcases hread : (c.readPage q.url q.headers).run.run s with ⟨halt | first, s₁⟩
  · refine .inr ⟨?_, _, noteUrl w q p, s₁,
      run_bind_of_error (run_ask_of_error _ _ hread), rfl⟩
    rintro _ s' ⟨first, later, s₂, rfl, fetched, -⟩
    cases hread.symm.trans (Client.run_readPage_eq_ok.mpr fetched)
  have fetched := Client.run_readPage_eq_ok.mp hread
  -- What is read is the one page that could be read first.
  have unique : ∀ {first' s₂}, c.Fetched q.url q.headers s first' s₂ →
      first' = first ∧ s₂ = s₁ := by
    intro first' s₂ fetched'
    cases hread.symm.trans (Client.run_readPage_eq_ok.mpr fetched')
    exact ⟨rfl, rfl⟩
  rw [run_bind_of_ok (run_ask _ _ hread)]
  cases hsuccess : first.isSuccess with
  | false =>
    obtain ⟨reasons, hrun⟩ := run_printPages_refused hsuccess
    refine .inr ⟨?_, reasons, noteUrl w q p, s₁, hrun, rfl⟩
    rintro _ s' ⟨_, later, _, rfl, fetched', hstatus, -⟩
    obtain ⟨rfl, rfl⟩ := unique fetched'
    cases hsuccess.symm.trans (fetched.isSuccess.trans hstatus)
  | true =>
    rcases run_laterRecords c w.looks first (noteUrl w q p) s₁ with
      ⟨later, s', follows, hlength, hrun⟩ | ⟨hlength, reasons, s', hrun⟩
    · exact .inl ⟨first :: later, s',
        ⟨first, later, s₁, rfl, fetched, fetched.isSuccess.symm.trans hsuccess, follows⟩, hlength,
        follows.isSuccessStatus fetched.isSuccess, run_printPages all hsuccess hrun⟩
    · refine .inr ⟨?_, reasons, noteUrl w q p, s', run_printPages_of_error all hsuccess hrun, rfl⟩
      rintro _ s'' ⟨_, later, _, rfl, fetched', -, follows⟩
      obtain ⟨rfl, rfl⟩ := unique fetched'
      exact Nat.lt_succ_of_le (hlength later s'' follows)

end

/-! ## Two pages -/

/-- A command for all pages of a set. -/
def productsArguments : UrlArguments where
  entitySet := "Products"
  key := none
  cast := none
  filters := []
  search := none
  select := []
  expand := []
  orderBy := []
  skip := none
  top := none
  count := false
  apply := none
  compute := []
  send := true
  allPages := true
  format := .compactJson

/-- A world without files in which requests go straight to the service. -/
def plainWorld : World where
  file? := fun _ => none
  styled := false
  transport := Session.send
  freshId := fun _ => ""
  boundary := ""
  innerBoundary := fun _ => ""
  looks := 8

def plainSettings : Settings :=
  { Settings.default with root := some "http://localhost/odata", headers := ∅ }

/-- A turn in which the service answers at once. -/
def answering (status : Nat) (body : String) : Turn := ⟨0, false, .ok ⟨status, ∅, body⟩⟩

/-- A service that answers with one record and a next link, and then as given. -/
def linked (second : Turn) : Session :=
  .start (Session.turnsOf
    [answering 200 "\x7b\"value\":[1],\"@odata.nextLink\":\"Products?page=2\"\x7d"] second)

/-- What comes of the command at such a service. -/
def runLinked (second : Turn) : (Except (List Reason) Unit × Printed) × Session :=
  ((runUrl plainWorld plainSettings productsArguments).run.run ⟨"", ""⟩).run (linked second)

/-- Two pages with records. -/
theorem runUrl_allPages_two : productsArguments.send = true ∧ productsArguments.allPages = true ∧
    ∃ q pages s', productsArguments.draft.build = .ok q ∧
      (Client.connect plainWorld.transport plainSettings).ReadsPages q
        (linked (answering 200 "\x7b\"value\":[2,3]\x7d")) pages s' ∧
      OutputFormat.compactJson.render (.array (recordsOf pages)) ++ "\n" = "[1,2,3]\n" := by
  have hok : (runLinked (answering 200 "\x7b\"value\":[2,3]\x7d")).1.1.isOk = true := by
    decide +kernel
  have houtput :
      (runLinked (answering 200 "\x7b\"value\":[2,3]\x7d")).1.2.output = "[1,2,3]\n" := by
    decide +kernel
  obtain ⟨q, hq⟩ : ∃ q, productsArguments.draft.build = .ok q := ⟨_, rfl⟩
  rw [runLinked] at hok houtput
  rcases runUrl_allPages rfl rfl hq with
    ⟨pages, s', reads, -, -, p', hrun, hprinted⟩ | ⟨-, reasons, p', s', hrun, -⟩
  · rw [hrun] at houtput
    exact ⟨rfl, rfl, q, pages, s', hq, reads,
      (String.empty_append.symm.trans hprinted.symm).trans houtput⟩
  · rw [hrun] at hok
    cases hok

/-- The second page is refused, and the command is done with the records of the first. -/
theorem runUrl_refused_page : isSuccessStatus 404 = false ∧
    (runLinked (answering 404 "oops")).2.sent.map (fun s => s.request.url) =
      ["http://localhost/odata/Products", "http://localhost/odata/Products?page=2"] ∧
    (runLinked (answering 404 "oops")).1.1.isOk = true ∧
    (runLinked (answering 404 "oops")).1.2.output = "[1]\n" := by
  refine ⟨by decide, ?_, ?_, ?_⟩ <;> decide +kernel

end CommandLine
end OData
