import Workflow.Toml.Lexeme

/-! Reading a TOML text.

A text is a sequence of lines: headers, which say what table the following lines
fill, and keys with their values.  Arrays and inline tables lie at most
`nestingLimit` deep in one another.
-/

namespace Workflow.Toml

def nestingLimit : Nat := 79

mutual

/-- Reads one value.  `fuel` bounds the steps, `levels` the nesting. -/
def readValue : (fuel levels : Nat) → List Char → Option (Toml × List Char)
  | 0, _, _ => none
  | fuel + 1, levels, cs =>
      match cs with
      | 't' :: 'r' :: 'u' :: 'e' :: rest => some (.boolean true, rest)
      | 'f' :: 'a' :: 'l' :: 's' :: 'e' :: rest => some (.boolean false, rest)
      | '[' :: rest =>
          match levels with
          | 0 => none
          | levels + 1 =>
              (readItems fuel levels rest).map fun (items, rest) => (.array items, rest)
      | '\x7b' :: rest =>
          match levels with
          | 0 => none
          | levels + 1 => do
              let (pairs, rest) ← match skipBlanks rest with
                | '\x7d' :: rest => some ([], rest)
                | rest => readPairs fuel levels rest
              let table ← inlineTable? pairs
              return (table, rest)
      | c :: _ =>
          if c = '"' ∨ c = '\x27' then
            (text? cs).map fun (text, rest) => (.string text, rest)
          else number? cs
      | [] => none

/-- Reads the items of an array up to its end.  They may lie on several lines,
and a comma may follow the last one. -/
def readItems : (fuel levels : Nat) → List Char → Option (List Toml × List Char)
  | 0, _, _ => none
  | fuel + 1, levels, cs =>
      match skipLines (cs.length + 1) cs with
      | ']' :: rest => some ([], rest)
      | start => do
          let (item, rest) ← readValue fuel levels start
          match skipLines (rest.length + 1) rest with
          | ',' :: rest =>
              let (items, rest) ← readItems fuel levels rest
              return (item :: items, rest)
          | ']' :: rest => return ([item], rest)
          | _ => none

/-- Reads the keys and values of an inline table up to its end, at least one. -/
def readPairs : (fuel levels : Nat) → List Char →
    Option (List (List String × String × Toml) × List Char)
  | 0, _, _ => none
  | fuel + 1, levels, cs => do
      let (path, key, rest) ← key? cs
      let rest ← mark? '=' rest
      let (value, rest) ← readValue fuel levels (skipBlanks rest)
      match skipBlanks rest with
      | ',' :: rest =>
          let (pairs, rest) ← readPairs fuel levels rest
          return ((path, key, value) :: pairs, rest)
      | '\x7d' :: rest => return ([(path, key, value)], rest)
      | _ => none

end

inductive Line where
  | empty
  | table (path : List String) (key : String)
  | next (path : List String) (key : String)
  | pair (path : List String) (key : String) (value : Toml)

def readLine (cs : List Char) : Option (Line × List Char) := do
  let ended (line : Line) (rest : List Char) : Option (Line × List Char) :=
    (lineEnd? rest).map fun rest => (line, rest)
  match skipBlanks cs with
  | '[' :: '[' :: rest =>
      let (path, key, rest) ← key? rest
      let rest ← (mark? ']' rest).bind (mark? ']')
      ended (.next path key) rest
  | '[' :: rest =>
      let (path, key, rest) ← key? rest
      let rest ← mark? ']' rest
      ended (.table path key) rest
  | start =>
      match lineEnd? start with
      | some rest => return (.empty, rest)
      | none =>
          let (path, key, rest) ← key? start
          let rest ← mark? '=' rest
          let (value, rest) ← readValue (rest.length + 1) nestingLimit (skipBlanks rest)
          ended (.pair path key value) rest

/-- Reads the remaining lines into a table; `current` is the path of the table
that the last header opened. -/
def readLinesInto : (fuel : Nat) → (current : List String) → Drafts → List Char → Option Drafts
  | 0, _, _, _ => none
  | _, _, entries, [] => some entries
  | fuel + 1, current, entries, cs => do
      let (line, rest) ← readLine cs
      match line with
      | .empty => readLinesInto fuel current entries rest
      | .table path key =>
          let entries ← entries.below path (Drafts.openTable key)
          readLinesInto fuel (path ++ [key]) entries rest
      | .next path key =>
          let entries ← entries.below path (Drafts.openNext key)
          readLinesInto fuel (path ++ [key]) entries rest
      | .pair path key value =>
          let entries ← entries.below current (Drafts.assign path key value)
          readLinesInto fuel current entries rest

/-- A mark that may stand at the start of a text. -/
def skipByteOrderMark : List Char → List Char
  | '\ufeff' :: rest => rest
  | cs => cs

def parse (text : String) : Option (Fields Toml) :=
  let cs := skipByteOrderMark text.toList
  (readLinesInto (cs.length + 1) [] [] cs).map Draft.finishEntries

end Workflow.Toml
