import OData.Csv
import OData.Text.Digits

/-! # Options on a command line

A command has switches, options with a value, at most one argument without a name
in front, and perhaps commands of its own.  Its words are read from left to
right.  The value of an option is either attached to it or the next word, and it
is looked at only when another option, an argument or the end of the line shows
that it is complete; so of two mistakes it may be the later one that counts.
-/
namespace OData
namespace CommandLine

/-- Why the words of a command line do not make a command. -/
inductive Usage where
  | help
  | version
  /-- There is nothing but the program's name. -/
  | helpForEmpty
  | missingCommand
  | missingArgument
  | unknownArgument
  | unknownCommand
  /-- A value is missing, or none of those allowed. -/
  | badValue
  /-- A value cannot be read. -/
  | unreadableValue
  /-- A value stands behind a switch. -/
  | superfluousValue
  | repeatedOption
  deriving DecidableEq, Repr

/-- What the value of an option can be. -/
inductive ValueKind where
  | text | path | number | format
  deriving DecidableEq, Repr

/-- The number of an option's value. -/
def number? (s : String) : Option Nat := Text.natBelow? UInt64.size s.toList

/-- What is wrong with a value, if anything. -/
def ValueKind.fault? (k : ValueKind) (s : String) : Option Usage :=
  match k with
  | text => none
  | path => if s.isEmpty then some .badValue else none
  | number => if (number? s).isNone then some .unreadableValue else none
  | format => if (OutputFormat.ofWord? s).isNone then some .badValue else none

/-- What an option does. -/
inductive Effect where
  | help
  | version
  | switch
  | single (kind : ValueKind)
  /-- Values are gathered; a comma separates several in one place if `commas` says
  so. -/
  | list (commas : Bool)
  deriving DecidableEq, Repr

/-- The kind of an option's value, if it has one. -/
def Effect.value? : Effect → Option ValueKind
  | help | version | switch => none
  | single kind => some kind
  | list _ => some .text

/-- A rule for an option, or for the argument without a name in front. -/
structure OptionRule where
  /-- The word behind two hyphens, or what the argument stands for. -/
  name : String
  /-- The letter behind one hyphen. -/
  letter : Option Char
  effect : Effect
  deriving DecidableEq, Repr

/-- The rules for the words of a command. -/
structure Grammar where
  options : List OptionRule
  /-- The argument, which must be there. -/
  argument : Option OptionRule
  /-- The commands that may follow. -/
  commands : List String

namespace Grammar

/-- The rule for the word behind two hyphens. -/
def named? (g : Grammar) (name : List Char) : Option OptionRule :=
  g.options.find? fun o => o.name.toList == name

/-- The rule for the letter behind one hyphen. -/
def lettered? (g : Grammar) (c : Char) : Option OptionRule :=
  g.options.find? fun o => o.letter == some c

end Grammar

/-! ## What was found -/

/-- The values found, under the names of their options.  A switch has the empty
list. -/
abbrev Found := List (String × List String)

namespace Found

/-- Whether an option was there. -/
def has (f : Found) (name : String) : Bool := (f.lookup name).isSome

/-- All values of an option. -/
def values (f : Found) (name : String) : List String := (f.lookup name).getD []

/-- The value of an option. -/
def value? (f : Found) (name : String) : Option String := (f.values name).head?

/-- Adds values to those of an option. -/
def add (f : Found) (name : String) (values : List String) : Found :=
  if f.has name then f.map fun e => if e.1 == name then (e.1, e.2 ++ values) else e
  else f ++ [(name, values)]

/-- What was found in two places.  Behind the command an option counts more than in
front of it. -/
def before (inner outer : Found) : Found := inner ++ outer

end Found

/-- How far the words have been read. -/
structure Progress where
  found : Found
  /-- An option or argument whose value is not looked at yet, and the value, if it
  was there. -/
  pending : Option (OptionRule × Option String)
  /-- Whether two hyphens alone were there, behind which no word is an option. -/
  plain : Bool

namespace Progress

def start : Progress := ⟨[], none, false⟩

/-- Takes an option with its value, if it has one. -/
def take (p : Progress) (rule : OptionRule) (value : Option String) : Except Usage Progress :=
  let put (values : List String) : Progress :=
    { p with found := p.found.add rule.name values, pending := none }
  match rule.effect, value with
  | .help, _ => .error .help
  | .version, _ => .error .version
  | .switch, _ => if p.found.has rule.name then .error .repeatedOption else .ok (put [])
  | _, none => .error .badValue
  | .single kind, some v =>
    if p.found.has rule.name then .error .repeatedOption
    else match kind.fault? v with
      | some fault => .error fault
      | none => .ok (put [v])
  | .list commas, some v =>
    .ok (put (if commas then (v.toList.splitOn ',').map String.ofList else [v]))

/-- Looks at the value that is pending. -/
def settle (p : Progress) : Except Usage Progress :=
  match p.pending with
  | none => .ok p
  | some (rule, value) => p.take rule value

/-- Whether the next word is the value of an option. -/
def awaitsValue (p : Progress) : Bool :=
  !p.plain && match p.pending with
    | some (_, none) => true
    | _ => false

/-- Takes an option that stands there with or without a value attached. -/
def option (p : Progress) (rule : OptionRule) (attached : Option String) :
    Except Usage Progress := do
  match rule.effect.value?, attached with
  | none, some _ => throw .superfluousValue
  | some _, none => return { ← p.settle with pending := some (rule, none) }
  | _, value => (← p.settle).take rule value

/-- Takes the options whose letters stand behind one hyphen.  What follows the
letter of an option with a value is the value, behind an equals sign or not. -/
def letters (g : Grammar) (p : Progress) : List Char → Except Usage Progress
  | [] => .ok p
  | c :: rest =>
    match g.lettered? c with
    | none => .error .unknownArgument
    | some rule =>
      if rule.effect.value?.isSome then
        p.option rule <| match rest with
          | [] => none
          | '=' :: value => some (String.ofList value)
          | value => some (String.ofList value)
      else
        match p.option rule none with
        | .error fault => .error fault
        | .ok p => p.letters g rest

/-- Takes a word behind two hyphens. -/
def long (g : Grammar) (p : Progress) (word : List Char) : Except Usage Progress :=
  match g.named? (word.takeWhile (· != '=')) with
  | none => .error .unknownArgument
  | some rule =>
    p.option rule (match word.dropWhile (· != '=') with
      | [] => none
      | _ :: value => some (String.ofList value))

/-- Takes a word that is no option. -/
def argument (g : Grammar) (p : Progress) (word : String) : Except Usage Progress :=
  let taken (rule : OptionRule) : Bool :=
    p.found.has rule.name || p.pending.any fun q => q.1.name == rule.name
  match g.argument.filter fun rule => !taken rule with
  | some rule => do return { ← p.settle with pending := some (rule, some word) }
  | none =>
    if g.commands.isEmpty || (p.plain && g.commands.contains word) then .error .unknownArgument
    else .error .unknownCommand

/-- Takes the next word. -/
def word (g : Grammar) (p : Progress) (w : String) : Except Usage Progress :=
  if p.plain then p.argument g w
  else
    match w.toList with
    | ['-', '-'] => .ok { p with plain := true }
    | '-' :: '-' :: name => p.long g name
    | '-' :: c :: letters => p.letters g (c :: letters)
    | _ =>
      match p.pending with
      | some (rule, none) => .ok { p with pending := some (rule, some w) }
      | _ => p.argument g w

end Progress

/-- Reads words up to a command, if one comes; gives the command and the words
behind it too. -/
def readWords (g : Grammar) (p : Progress) :
    List String → Except Usage (Progress × Option (String × List String))
  | [] => .ok (p, none)
  | w :: ws =>
    if !p.plain && !p.awaitsValue && g.commands.contains w then .ok (p, some (w, ws))
    else
      match p.word g w with
      | .error fault => .error fault
      | .ok p => readWords g p ws

/-- Reads the words behind a command. -/
def readOptions (g : Grammar) (words : List String) : Except Usage Found := do
  let (p, _) ← readWords g .start words
  let p ← p.settle
  match g.argument with
  | some rule => if !p.found.has rule.name then throw .missingArgument
  | none => pure ()
  return p.found

end CommandLine
end OData
