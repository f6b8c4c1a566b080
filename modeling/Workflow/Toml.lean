import Workflow.Fields

/-! Settings files: the values of a TOML text, and how its statements build up
tables.

A table may be filled in several places: below its header, through headers of
tables inside it, and through dotted keys.  Which of these came first decides
which others may follow.  A value, an inline table among them, is closed.
-/

namespace Workflow

inductive Toml where
  | string (value : String)
  | integer (value : Int)
  | float (value : Float)
  | boolean (value : Bool)
  | date (text : String)
  | array (items : List Toml)
  | table (fields : List (String × Toml))
deriving Repr, Inhabited

namespace Toml

/-- How a table came to be: by its own header, on the way to another header, or
by a dotted key. -/
inductive Origin where
  | header
  | implied
  | dotted
deriving DecidableEq, Repr

/-- What a key stands for while a text is being read.  A series is an array of
tables, each with a header, the last one first. -/
inductive Draft where
  | closed (value : Toml)
  | table (origin : Origin) (entries : List (String × Draft))
  | series (tables : List (List (String × Draft)))

abbrev Drafts := Fields Draft

namespace Draft

mutual

def finish : Draft → Toml
  | .closed value => value
  | .table _ entries => .table (finishEntries entries)
  | .series tables => .array (finishTables tables).reverse

def finishEntries : List (String × Draft) → List (String × Toml)
  | [] => []
  | (key, draft) :: rest => (key, finish draft) :: finishEntries rest

def finishTables : List (List (String × Draft)) → List Toml
  | [] => []
  | entries :: rest => .table (finishEntries entries) :: finishTables rest

end

end Draft

namespace Drafts

/-- Changes the table that a path leads to from a table of the given origin.
Tables that are missing on the way are made as `missing`; others have to be of
an origin that may be passed.  A series leads to its last table. -/
def within (missing : Origin) (passes : Origin → Bool)
    (change : Origin → Drafts → Option Drafts) :
    List String → Origin → Drafts → Option Drafts
  | [], origin, entries => change origin entries
  | key :: path, _, entries =>
      match Fields.get? entries key with
      | none =>
          (within missing passes change path missing []).map fun inner =>
            Fields.insert key (.table missing inner) entries
      | some (.table origin inner) =>
          if passes origin then
            (within missing passes change path origin inner).map fun inner =>
              Fields.insert key (.table origin inner) entries
          else none
      | some (.series (last :: earlier)) =>
          (within missing passes change path .header last).map fun last =>
            Fields.insert key (.series (last :: earlier)) entries
      | some (.series []) | some (.closed _) => none

/-- Changes the table that a header names, or one inside it. -/
def below (path : List String) (change : Drafts → Option Drafts) (entries : Drafts) :
    Option Drafts :=
  within .implied (fun _ => true) (fun _ entries => change entries) path .header entries

/-- Adds a key, which must be new.  A dotted key goes into a table that only
dotted keys have made. -/
def assign (path : List String) (key : String) (value : Toml) (entries : Drafts) :
    Option Drafts :=
  let add (origin : Origin) (entries : Drafts) : Option Drafts :=
    if path ≠ [] ∧ origin ≠ .dotted then none
    else if Fields.contains entries key then none
    else some (Fields.insert key (.closed value) entries)
  within .dotted (fun origin => origin ≠ .header) add path .header entries

/-- Opens a table by its header, the last key of which is `key`.  A table has one
header. -/
def openTable (key : String) (entries : Drafts) : Option Drafts :=
  match Fields.get? entries key with
  | none => some (Fields.insert key (.table .header []) entries)
  | some (.table .implied inner) => some (Fields.insert key (.table .header inner) entries)
  | some _ => none

def openNext (key : String) (entries : Drafts) : Option Drafts :=
  match Fields.get? entries key with
  | none => some (Fields.insert key (.series [[]]) entries)
  | some (.series tables) => some (Fields.insert key (.series ([] :: tables)) entries)
  | some _ => none

end Drafts

/-- The inline table with the given keys; none is dotted into a table that
another one closed. -/
def inlineTable? (pairs : List (List String × String × Toml)) : Option Toml :=
  (pairs.foldlM (fun entries (path, key, value) => Drafts.assign path key value entries)
    ([] : Drafts)).map fun entries => .table (Draft.finishEntries entries)

end Toml

end Workflow
