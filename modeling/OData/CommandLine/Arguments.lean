import OData.CommandLine.Options
import OData.EntityKey
import OData.Guid
import OData.Query.Draft

/-! # Commands

The commands of the program, and the options that each of them has.  Some options
may stand in front of a command as well as behind it.
-/
namespace OData
namespace CommandLine

/-- Options of every command. -/
structure Globals where
  verbose : Bool
  noColor : Bool
  /-- The document with the settings. -/
  config : Option String
  /-- The root of the service. -/
  root : Option String
  deriving DecidableEq, Repr

/-- What to ask of a query. -/
structure UrlArguments where
  entitySet : String
  key : Option String
  cast : Option String
  filters : List String
  search : Option String
  select : List String
  expand : List String
  orderBy : List String
  skip : Option Nat
  top : Option Nat
  count : Bool
  apply : Option String
  compute : List String
  send : Bool
  allPages : Bool
  format : OutputFormat
  deriving DecidableEq, Repr

/-- What to do with a batch. -/
structure BatchArguments where
  file : String
  send : Bool
  bodies : Bool
  deriving DecidableEq, Repr

/-- Which answer to read. -/
structure DecodeArguments where
  file : String
  contentType : String
  definition : Option String
  bodies : Bool
  deriving DecidableEq, Repr

/-- Which operation to wait for. -/
structure PollArguments where
  url : String
  /-- Seconds to wait. -/
  timeout : Option Nat
  /-- Seconds between two looks. -/
  interval : Option Nat
  cancel : Bool
  format : OutputFormat
  deriving DecidableEq, Repr

inductive Command where
  | url (arguments : UrlArguments)
  | batch (arguments : BatchArguments)
  | decode (arguments : DecodeArguments)
  | poll (arguments : PollArguments)
  deriving DecidableEq, Repr

/-! ## The grammar -/

def helpRule : OptionRule := ⟨"help", some 'h', .help⟩

def switch (name : String) : OptionRule := ⟨name, none, .switch⟩

def single (name : String) (kind : ValueKind) : OptionRule := ⟨name, none, .single kind⟩

/-- The options that may stand anywhere. -/
def globalRules : List OptionRule :=
  [⟨"verbose", some 'v', .switch⟩, switch "no-color", ⟨"config", some 'c', .single .path⟩,
    single "base-url" .text, helpRule]

/-- The words for the commands. -/
def commandWords : List String := ["url", "batch", "decode", "poll"]

/-- The words in front of a command. -/
def outerGrammar : Grammar where
  options := globalRules ++ [⟨"version", some 'V', .version⟩]
  argument := none
  commands := commandWords ++ ["help"]

/-- The words behind a command. -/
def grammarOf (argument : String) (kind : ValueKind) (rules : List OptionRule) : Grammar where
  options := rules ++ globalRules
  argument := some (single argument kind)
  commands := []

def urlGrammar : Grammar := grammarOf "entity-set" .text
  [single "key" .text, single "cast" .text, ⟨"filter", some 'f', .list false⟩,
    single "search" .text, ⟨"select", some 's', .list true⟩, ⟨"expand", some 'e', .list false⟩,
    ⟨"orderby", some 'o', .list false⟩, single "skip" .number,
    ⟨"top", some 't', .single .number⟩, switch "count", single "apply" .text,
    ⟨"compute", none, .list false⟩, switch "send", switch "all-pages",
    single "format" .format]

def batchGrammar : Grammar := grammarOf "file" .path [switch "send", switch "bodies"]

def decodeGrammar : Grammar := grammarOf "file" .path
  [single "content-type" .text, single "definition" .path, switch "bodies"]

def pollGrammar : Grammar := grammarOf "monitor-url" .text
  [single "timeout" .number, single "interval" .number, switch "cancel",
    single "format" .format]

/-! ## What the words say -/

def globalsOf (f : Found) : Globals :=
  ⟨f.has "verbose", f.has "no-color", f.value? "config", f.value? "base-url"⟩

def numberOf (f : Found) (name : String) : Option Nat := (f.value? name).bind number?

def formatOf (f : Found) : OutputFormat :=
  ((f.value? "format").bind OutputFormat.ofWord?).getD .json

def urlOf (f : Found) : UrlArguments where
  entitySet := (f.value? "entity-set").getD ""
  key := f.value? "key"
  cast := f.value? "cast"
  filters := f.values "filter"
  search := f.value? "search"
  select := f.values "select"
  expand := f.values "expand"
  orderBy := f.values "orderby"
  skip := numberOf f "skip"
  top := numberOf f "top"
  count := f.has "count"
  apply := f.value? "apply"
  compute := f.values "compute"
  send := f.has "send"
  allPages := f.has "all-pages"
  format := formatOf f

def batchOf (f : Found) : BatchArguments :=
  ⟨(f.value? "file").getD "", f.has "send", f.has "bodies"⟩

def decodeOf (f : Found) : DecodeArguments where
  file := (f.value? "file").getD ""
  contentType := (f.value? "content-type").getD "application/json"
  definition := f.value? "definition"
  bodies := f.has "bodies"

def pollOf (f : Found) : PollArguments where
  url := (f.value? "monitor-url").getD ""
  timeout := numberOf f "timeout"
  interval := numberOf f "interval"
  cancel := f.has "cancel"
  format := formatOf f

/-- Reads the words behind a command.  All pages can be asked for only of a query
that is sent. -/
def readCommand (name : String) (words : List String) : Except Usage (Command × Found) := do
  match name with
  | "url" =>
    let f ← readOptions urlGrammar words
    if f.has "all-pages" && !f.has "send" then throw .missingArgument
    return (.url (urlOf f), f)
  | "batch" =>
    let f ← readOptions batchGrammar words
    return (.batch (batchOf f), f)
  | "decode" =>
    let f ← readOptions decodeGrammar words
    return (.decode (decodeOf f), f)
  | _ =>
    let f ← readOptions pollGrammar words
    return (.poll (pollOf f), f)

/-- What the word `help` comes to: help for the program or for the command behind
it. -/
def helpUsage : List String → Usage
  | [] => .help
  | [name] => if outerGrammar.commands.contains name then .help else .unknownCommand
  | _ => .unknownCommand

/-- Reads the words of a command line. -/
def read (words : List String) : Except Usage (Globals × Command) := do
  match ← readWords outerGrammar .start words with
  | (_, some ("help", rest)) => throw (helpUsage rest)
  | (outer, some (name, rest)) =>
    let (command, inner) ← readCommand name rest
    return (globalsOf (inner.before (← outer.settle).found), command)
  | (outer, none) =>
    let outer ← outer.settle
    throw (if outer.found.isEmpty then .helpForEmpty else .missingCommand)

/-! ## Queries -/

/-- The key that a word stands for: an integer, a GUID or else a text. -/
def keyOf (word : String) : EntityKey :=
  match Text.intWithin? Json.leastInt64 Json.greatestInt64 word.toList, Guid.ofText? word with
  | some n, _ => .single (.int n)
  | none, some g => .single (.guid g)
  | none, none => .single (.text word)

namespace UrlArguments

/-- The calls that describe the query. -/
def calls (a : UrlArguments) : List Query.Call :=
  (a.key.map fun k => Query.Call.key (keyOf k)).toList ++
  (a.cast.map Query.Call.cast).toList ++
  a.filters.map (fun f => .filter (.raw f)) ++
  (a.search.map Query.Call.search).toList ++
  [.select a.select] ++
  a.expand.map (fun e => .expand (.ofNavigation e)) ++
  a.orderBy.map (fun o => .orderBy (.ofText o)) ++
  (a.skip.map Query.Call.skip).toList ++
  (a.top.map Query.Call.top).toList ++
  (if a.count then [.count] else []) ++
  (a.apply.map Query.Call.apply).toList ++
  a.compute.map Query.Call.compute

/-- The query that the words describe. -/
def draft (a : UrlArguments) : Query.Draft := (Query.Draft.ofSet a.entitySet).tellAll a.calls

end UrlArguments
end CommandLine
end OData
