import Workflow.Document.Schedule

/-! The command line.

It names a task and what the task works on.  Options may stand anywhere behind
the name of the task; `--` ends them.
-/

namespace Workflow

inductive Task where
  | run (graph : String) (input subflows logs : Option String)
  | validate (graph : String)
  | catalog (category : Option Category)
  | new (name : String) (templates : List String) (out : Option String)
  | schedule (graph : String) (spec : ScheduleSpec) (subflows : Option String)

/-- A task and the file with the settings for it. -/
structure Invocation where
  settings : Option String
  task : Task

namespace CommandLine

/-- Options with their values, and what is no option, both in order. -/
structure Arguments where
  options : List (String × String)
  operands : List String

/-- Whether a word is an option.  A lone hyphen is not. -/
def isOption (word : String) : Bool :=
  match word.toList with
  | '-' :: _ :: _ => true
  | _ => false

/-- The name of an option, and the value behind an equals sign. -/
def splitOption? (word : String) : Option (String × Option String) :=
  match word.toList with
  | '-' :: '-' :: rest =>
      let name := String.ofList (rest.takeWhile fun c => c ≠ '=')
      match rest.dropWhile fun c => c ≠ '=' with
      | _ :: value => some (name, some (String.ofList value))
      | [] => some (name, none)
  | _ => none

/-- Sorts words into options and operands.  Every option takes a value, which is
the next word unless it follows an equals sign.  With `throughout`, options may
stand behind operands; otherwise the first operand and all words behind it are
left as they are. -/
def gather (throughout : Bool) (names : List String) : List String → Option Arguments
  | [] => some ⟨[], []⟩
  | word :: rest =>
      let add (name value : String) (found : Option Arguments) : Option Arguments :=
        if name ∈ names then
          found.map fun found => { found with options := (name, value) :: found.options }
        else none
      if word = "--" then if throughout then some ⟨[], rest⟩ else none
      else if isOption word then
        match splitOption? word, rest with
        | some (name, some value), rest => add name value (gather throughout names rest)
        | some (name, none), value :: rest =>
            if isOption value then none else add name value (gather throughout names rest)
        | _, _ => none
      else if throughout then
        (gather throughout names rest).map fun found =>
          { found with operands := word :: found.operands }
      else some ⟨[], word :: rest⟩

/-- The value of an option that is given at most once. -/
def single? (options : List (String × String)) (name : String) : Option (Option String) :=
  match options.filter fun option => option.1 = name with
  | [] => some none
  | [option] => some (some option.2)
  | _ => none

/-- Reads the value of an option, if it is given. -/
def reading {α : Type} (read : String → Option α) : Option String → Option (Option α)
  | none => some none
  | some text => (read text).map some

/-- The name of a file; it is not empty. -/
def path? (text : String) : Option String :=
  if text.isEmpty then none else some text

def category? (word : String) : Option Category :=
  Category.words.lookup word

/-- A number of 32 bits with or without a sign. -/
def count? (text : String) : Option Nat :=
  let (negative, digits) := match text.toList with
    | '+' :: digits => (false, digits)
    | '-' :: digits => (true, digits)
    | digits => (false, digits)
  let value := Nat.ofDigitChars 10 digits 0
  if digits.isEmpty ∨ !digits.all Char.isDigit then none
  else if negative ∧ value ≠ 0 then none
  else if value < ScheduleSpec.minutesBound then some value
  else none

/-- The schedule that `--every` or `--at` asks for; exactly one of them is
given. -/
def spec? (every time : Option String) : Option ScheduleSpec :=
  match every, time with
  | some minutes, none => (count? minutes).map fun minutes => .interval minutes none
  | none, some time => (Instant.ofText? time).map .once
  | _, _ => none

def optionNames : List (String × List String) :=
  [ ("run", ["input", "subflows", "logs"]),
    ("validate", []),
    ("catalog", ["category"]),
    ("new", ["name", "out"]),
    ("schedule", ["every", "at", "subflows"])]

/-- The name of a new graph unless one is given. -/
def untitled : String := "Untitled workflow"

def task? (name : String) (options : List (String × String)) (operands : List String) :
    Option Task := do
  let option (name : String) : Option (Option String) := single? options name
  let file (name : String) : Option (Option String) := do reading path? (← option name)
  match name, operands with
  | "run", [graph] =>
      return .run (← path? graph) (← option "input") (← file "subflows") (← file "logs")
  | "validate", [graph] => return .validate (← path? graph)
  | "catalog", [] => return .catalog (← reading category? (← option "category"))
  | "new", first :: others =>
      return .new ((← option "name").getD untitled) (first :: others) (← file "out")
  | "schedule", [graph] =>
      return .schedule (← path? graph) (← spec? (← option "every") (← option "at"))
        (← file "subflows")
  | _, _ => none

/-- The task that words ask for.  The settings may be named in front of the task
or behind it, and the latter counts. -/
def parse (words : List String) : Option Invocation := do
  let settingsOption := "config"
  let before ← gather false [settingsOption] words
  match before.operands with
  | [] => none
  | name :: rest =>
      let names ← optionNames.lookup name
      let arguments ← gather true (settingsOption :: names) rest
      let general ← reading path? (← single? before.options settingsOption)
      let special ← reading path? (← single? arguments.options settingsOption)
      let task ← task? name arguments.options arguments.operands
      return ⟨special.or general, task⟩

def usage : List String :=
  [ "usage: [--config FILE] TASK",
    "  run GRAPH [--input JSON] [--subflows FILE] [--logs FILE]",
    "  validate GRAPH",
    "  catalog [--category NAME]",
    "  new [--name NAME] [--out FILE] TEMPLATE...",
    "  schedule GRAPH (--every MINUTES | --at TIME) [--subflows FILE]"]

end CommandLine

end Workflow
