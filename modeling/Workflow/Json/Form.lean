import Workflow.Json.Reader
import Workflow.Json.Shape

/-! What a document has to look like, and where a text goes wrong.

A text is gone through from its start.  The first place decides at which it is no
longer a payload value, or not the one that the form asks for.
-/

namespace Workflow.Json

/-- What a value has to look like.  A text is called `expected` where something
else stands, and `fault` tells what is wrong with it.  The fields of a record have
names, and `true` where they have to be there. -/
inductive Form where
  | anything
  | flag
  | double
  | text (expected : String) (fault : String → Option String)
  | word (words : List String)
  | list (item : Form)
  | table (item : Form)
  | record (type : String) (fields : List (String × Bool × Form))

inductive Misfit where
  | malformed (fault : Fault)
  | shape (error : ShapeError)
  | unknownWord (word : String) (words : List String)
  | repeatedField (name : String)
  | unsuitable (reason : String)

def oneOf (words : List String) : String :=
  match words.map fun word => s!"`{word}`" with
  | [a] => a
  | [a, b] => s!"{a} or {b}"
  | quoted => "one of " ++ ", ".intercalate quoted

def Misfit.message : Misfit → String
  | .malformed fault => fault.message
  | .shape error => error.message
  | .unknownWord word words => s!"unknown variant `{word}`, expected {oneOf words}"
  | .repeatedField name => s!"duplicate field `{name}`"
  | .unsuitable reason => reason

/-- A misfit with the text still unread, as in `Stop`. -/
structure Complaint where
  misfit : Misfit
  rest : List Char
  looking : Bool

abbrev Passage := Except Complaint (List Char)

namespace Form

def ofStop {α : Type} : Except Stop α → Except Complaint α
  | .ok found => .ok found
  | .error stop => .error ⟨.malformed stop.fault, stop.rest, stop.looking⟩

def complain (misfit : Misfit) (rest : List Char) : Passage :=
  .error ⟨misfit, rest, false⟩

def wrongType (found : Json) (expected : String) : Misfit :=
  .shape (.wrongType found expected)

/-- A value that is no array and no object, if `judge` has nothing against it. -/
def scalar (expected : String) (judge : Json → Option Misfit) (cs : List Char) : Passage :=
  match skipBlanks cs with
  | '[' :: rest => complain (wrongType (.array []) expected) ('[' :: rest)
  | '{' :: rest => complain (wrongType (.object []) expected) ('{' :: rest)
  | cs => do
      let (value, rest) ← ofStop (readValue 1 0 cs)
      match judge value with
      | none => return rest
      | some misfit => complain misfit rest

/-- Where none of the values fits that could stand here. -/
def mismatch (expected : String) : List Char → Passage :=
  scalar expected fun value => some (wrongType value expected)

def judgeText (expected : String) (fault : String → Option Misfit) : Json → Option Misfit
  | .string content => fault content
  | value => some (wrongType value expected)

def judgeWord (words : List String) (expected : String) : Json → Option Misfit :=
  judgeText expected fun found =>
    if found ∈ words then none else some (.unknownWord found words)

def judgeFlag : Json → Option Misfit
  | .bool _ => none
  | value => some (wrongType value "a boolean")

def judgeDouble : Json → Option Misfit
  | .number _ => none
  | value => some (wrongType value "f64")

def judgeNull (expected : String) : Json → Option Misfit
  | .null => none
  | value => some (wrongType value expected)

/-- Goes into an array or object whose bracket stands in front of `rest`. -/
def enter (levels : Nat) (bracket : Char) (rest : List Char) (inside : Nat → Passage) : Passage :=
  match levels with
  | 0 => ofStop (stopAt (α := List Char) .nestedTooDeep (bracket :: rest)) |>.map (·.2)
  | levels + 1 => inside levels

/-- A word, alone or as the name of the only entry of an object, which is null. -/
def passWord (levels : Nat) (words : List String) (cs : List Char) : Passage :=
  match skipBlanks cs with
  | '"' :: rest => scalar "a string" (judgeWord words "variant identifier") ('"' :: rest)
  | '{' :: rest => enter levels '{' rest fun _ => do
      let rest ← scalar "variant identifier" (judgeWord words "variant identifier") rest
      let (_, rest) ← ofStop (takeColon rest)
      let rest ← scalar "unit" (judgeNull "unit") rest
      match skipBlanks rest with
      | '}' :: rest => return rest
      | [] => complain (.malformed .endInObject) []
      | rest => complain (.malformed .expectedValue) rest
  | [] => .error ⟨.malformed .endInValue, [], true⟩
  | rest => .error ⟨.malformed .expectedValue, rest, true⟩

/-- The end of an array in which nothing may follow. -/
def closeArray (cs : List Char) : Passage :=
  match skipBlanks cs with
  | ']' :: rest => .ok rest
  | [] => .error ⟨.malformed .endInArray, [], true⟩
  | ',' :: rest =>
      match skipBlanks rest with
      | ']' :: rest => .error ⟨.malformed .trailingComma, ']' :: rest, true⟩
      | rest => .error ⟨.malformed .trailingCharacters, rest, true⟩
  | rest => .error ⟨.malformed .trailingCharacters, rest, true⟩

/-- The first field of a record that has to be there and is not among those seen. -/
def missing? (fields : List (String × Bool × Form)) (seen : List String) : Option String :=
  (fields.find? fun (name, needed, _) => needed && !seen.contains name).map (·.1)

mutual

/-- Goes through one value.  `fuel` bounds the steps, `levels` the nesting. -/
def pass : Nat → Nat → Form → List Char → Passage
  | 0, _, _, cs => complain (.malformed .endInValue) cs
  | fuel + 1, levels, form, cs =>
      match form, skipBlanks cs with
      | .anything, cs => ofStop (readValue fuel levels cs) |>.map (·.2)
      | .flag, cs => scalar "a boolean" judgeFlag cs
      | .double, cs => scalar "f64" judgeDouble cs
      | .text expected fault, cs =>
          scalar expected (judgeText expected fun content => (fault content).map .unsuitable) cs
      | .word words, cs => passWord levels words cs
      | .list item, '[' :: rest =>
          enter levels '[' rest fun levels => passItems fuel levels item true rest
      | .list _, cs => mismatch "a sequence" cs
      | .table item, '{' :: rest =>
          enter levels '{' rest fun levels => passTable fuel levels item true rest
      | .table _, cs => mismatch "a map" cs
      | .record _ fields, '{' :: rest =>
          enter levels '{' rest fun levels => passFields fuel levels fields [] true rest
      | .record type fields, '[' :: rest =>
          enter levels '[' rest fun levels => passPlaces fuel levels type fields 0 fields rest
      | .record type _, cs => mismatch s!"struct {type}" cs

def passItems : Nat → Nat → Form → Bool → List Char → Passage
  | 0, _, _, _, cs => complain (.malformed .endInArray) cs
  | fuel + 1, levels, item, first, cs => do
      match ← ofStop (nextItem first cs) with
      | (false, rest) => return rest
      | (true, start) =>
          let rest ← pass fuel levels item start
          passItems fuel levels item false rest

/-- Goes through the entries of an object, all with the same form. -/
def passTable : Nat → Nat → Form → Bool → List Char → Passage
  | 0, _, _, _, cs => complain (.malformed .endInObject) cs
  | fuel + 1, levels, item, first, cs => do
      match ← ofStop (nextName first cs) with
      | (none, rest) => return rest
      | (some _, rest) =>
          let (_, rest) ← ofStop (takeColon rest)
          let rest ← pass fuel levels item rest
          passTable fuel levels item false rest

/-- Goes through the entries of a record; `seen` names its fields that were there.
What is no field of the record may be anything. -/
def passFields : Nat → Nat → List (String × Bool × Form) → List String → Bool → List Char → Passage
  | 0, _, _, _, _, cs => complain (.malformed .endInObject) cs
  | fuel + 1, levels, fields, seen, first, cs => do
      match ← ofStop (nextName first cs) with
      | (none, rest) =>
          match missing? fields seen with
          | some name => complain (.shape (.missingField name)) rest
          | none => return rest
      | (some name, rest) =>
          if name ∈ seen then complain (.repeatedField name) (skipBlanks rest)
          else
            let (_, rest) ← ofStop (takeColon rest)
            match fields.lookup name with
            | some (_, form) =>
                let rest ← pass fuel levels form rest
                passFields fuel levels fields (name :: seen) false rest
            | none =>
                let rest ← pass fuel levels .anything rest
                passFields fuel levels fields seen false rest

/-- Goes through a record that is given as an array; `place` counts its fields that
were there, and `left` are the others. -/
def passPlaces : Nat → Nat → String → List (String × Bool × Form) → Nat →
    List (String × Bool × Form) → List Char → Passage
  | 0, _, _, _, _, _, cs => complain (.malformed .endInArray) cs
  | _ + 1, _, _, _, _, [], cs => closeArray cs
  | fuel + 1, levels, type, fields, place, (_, _, form) :: left, cs => do
      match ← ofStop (nextItem (place = 0) cs) with
      | (false, rest) =>
          match (fields.drop place).findIdx? fun (_, needed, _) => needed with
          | some more =>
              complain (.shape (.tooShort (place + more) (recordOf type fields.length))) rest
          | none => return rest
      | (true, start) =>
          let rest ← pass fuel levels form start
          passPlaces fuel levels type fields (place + 1) left rest

end

/-- What is wrong with a text that does not hold a value of the form, and nothing
else but blanks. -/
def complaint? (form : Form) (text : String) : Option String :=
  let cs := text.toList
  let passage : Passage := do
    let rest ← pass (stepsFor cs) nestingLimit form cs
    match skipBlanks rest with
    | [] => return []
    | rest => .error ⟨.malformed .trailingCharacters, rest, true⟩
  match passage with
  | .ok _ => none
  | .error complaint =>
      let (line, column) := stopPosition cs complaint.rest complaint.looking
      some s!"{complaint.misfit.message} at line {line} column {column}"

end Form

end Workflow.Json
