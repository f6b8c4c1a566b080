import Workflow.Json

/-! Reading records with named fields out of payload values.

A record is an object, whose unknown fields do not matter, or an array of its
fields in their declared order.  A field that is missing may have a default;
one that is present has to have the right shape.
-/

namespace Workflow

namespace Json

def listOf? {α : Type} (read : Json → Option α) (value : Json) : Option (List α) :=
  value.array?.bind fun items => items.mapM read

/-- Reads every field of an object under its name. -/
def mapOf? {α : Type} (read : Json → Option α) (value : Json) : Option (Fields α) :=
  value.object?.bind fun fields =>
    (fields.mapM fun (name, value) => (read value).map fun value => (name, value))

def double? (value : Json) : Option Float :=
  value.toFloat?

def below? (bound : Nat) (value : Json) : Option Nat :=
  value.natural?.bind fun n => if n < bound then some n else none

/-- One of a list of words, given as a text or as the only field of an object
with nothing in it. -/
def wordOf? {α : Type} (words : List (String × α)) : Json → Option α
  | .string word => words.lookup word
  | .object [(word, .null)] => words.lookup word
  | _ => none

end Json

structure Record where
  get? : String → Option Json
  positional : Bool

namespace Record

/-- The record with the given field names, in declared order. -/
def ofJson? (names : List String) : Json → Option Record
  | .object fields => some ⟨Fields.get? fields, false⟩
  | .array items =>
      if items.length ≤ names.length then some ⟨fun name => (names.zip items).lookup name, true⟩
      else none
  | _ => none

variable {α : Type} (record : Record) (name : String) (read : Json → Option α)

def required : Option α :=
  (record.get? name).bind read

def defaulted (default : α) : Option α :=
  match record.get? name with
  | some value => read value
  | none => some default

/-- A field that may be null, with null as its default. -/
def nullable : Option (Option α) :=
  match record.get? name with
  | none | some .null => some none
  | some value => (read value).map some

/-- A field that may be null, and that only an object may leave out. -/
def optional : Option (Option α) :=
  if record.positional ∧ (record.get? name).isNone then none else record.nullable name read

end Record

end Workflow
