import Workflow.Text.Hex

/-! Identifiers of 128 bits.

They are written as hexadecimal digits in five groups.  Reading also accepts
the digits without hyphens, and the grouped form in braces or behind
`urn:uuid:`.

A supply hands out identifiers and names.  Names have the form of identifiers
but never run out, so no two of them are the same.
-/

namespace Workflow

structure Uuid where
  bits : BitVec 128
deriving DecidableEq, Repr, Inhabited

namespace Uuid

def nil : Uuid := ⟨0⟩

def digits (id : Uuid) : List Char :=
  Text.hexDigits id.bits.toNat 32

/-- Hyphens behind 8, 12, 16 and 20 of the digits. -/
def group (digits : List Char) : List Char :=
  digits.take 8 ++ '-' :: (digits.drop 8).take 4 ++ '-' :: (digits.drop 12).take 4 ++
    '-' :: (digits.drop 16).take 4 ++ '-' :: digits.drop 20

def text (id : Uuid) : String :=
  String.ofList (group id.digits)

def ofDigits? (digits : List Char) : Option Uuid :=
  if digits.length = 32 then (Text.hexNumber? 0 digits).map fun n => ⟨BitVec.ofNat 128 n⟩ else none

def ungroup? (cs : List Char) : Option (List Char) :=
  let digits :=
    cs.take 8 ++ (cs.drop 9).take 4 ++ (cs.drop 14).take 4 ++ (cs.drop 19).take 4 ++ cs.drop 24
  if cs.length = 36 ∧ group digits = cs then some digits else none

def ofGrouped? (cs : List Char) : Option Uuid :=
  (ungroup? cs).bind ofDigits?

def ofText? (text : String) : Option Uuid :=
  let cs := text.toList
  let urn := "urn:uuid:".toList
  if cs.length = 32 then ofDigits? cs
  else if cs.length = 38 ∧ cs.head? = some '\x7b' ∧ cs.getLast? = some '\x7d' then
    ofGrouped? (cs.drop 1).dropLast
  else if cs.length = 45 ∧ urn.isPrefixOf cs then ofGrouped? (cs.drop 9)
  else ofGrouped? cs

/-- The places at which the groups of an identifier start. -/
def groupStarts : List Nat := [0, 9, 14, 19, 24]

def groupSizes : List Nat := [8, 4, 4, 4, 12]

/-- The first character that is neither digit nor hyphen, and the number of its first
byte; `place` is that of the first one. -/
def stranger? (place : Nat) : List Char → Option (Char × Nat)
  | [] => none
  | c :: rest =>
      if c = '-' ∨ (Text.hexValue? c).isSome then stranger? (place + c.utf8Size) rest
      else some (c, place)

/-- What is wrong with a text that is no identifier: first a character that cannot
stand in one, then the number of groups, then the first group of a wrong size. -/
def complaint (text : String) : String :=
  let cs := text.toList
  let urn := "urn:uuid:".toList
  let (inner, before) :=
    if cs.head? = some '\x7b' ∧ cs.getLast? = some '\x7d' ∧ 1 < cs.length then
      ((cs.drop 1).dropLast, 1)
    else if urn.isPrefixOf cs then (cs.drop 9, 9)
    else (cs, 0)
  let hyphens := (inner.zipIdx.filter (·.1 = '-')).map (·.2)
  match stranger? (before + 1) inner with
  | some (c, place) =>
      "invalid character: expected an optional prefix of `urn:uuid:` followed by " ++
        s!"[0-9a-fA-F-], found `{c}` at {place}"
  | none =>
      if hyphens = [] ∧ before = 0 then
        s!"invalid length: expected length 32 for simple format, found {cs.length}"
      else if hyphens.length ≠ 4 then
        s!"invalid group count: expected 5, found {hyphens.length + 1}"
      else
        let sizes := (hyphens ++ [cs.length]).zipWith (fun stop start => stop - start) groupStarts
        let groups := (sizes.zip groupSizes).zipIdx
        match groups.find? fun ((size, expected), group) => group = 4 ∨ size ≠ expected with
        | some ((size, expected), group) =>
            s!"invalid group length in group {group}: expected {expected}, found {size}"
        | none => ""

/-- The bits of `n` with six more among them, which mark an identifier as
random. -/
def marked (n : Nat) : Nat :=
  let high := n >>> 74
  let middle := (n >>> 62) % (1 <<< 12)
  let low := n % (1 <<< 62)
  (high <<< 80) + (4 <<< 76) + (middle <<< 64) + (2 <<< 62) + low

/-- The random identifier number `n`; they repeat after 122 bits. -/
def random (n : Nat) : Uuid :=
  ⟨BitVec.ofNat 128 (marked n)⟩

/-- The name number `n`: the text of the random identifier, whose last group
grows when 32 digits are too few. -/
def name (n : Nat) : String :=
  let bits := marked n
  String.ofList (group (Text.hexDigits bits (max 32 (bits.log2 / 4 + 1))))

end Uuid

/-- A supply of identifiers, `next` being the number of the first one unused. -/
structure Ids where
  next : Nat
deriving DecidableEq, Repr

abbrev Fresh (α : Type) := StateM Ids α

def Ids.uuid : Fresh Uuid := fun ids =>
  (Uuid.random ids.next, ⟨ids.next + 1⟩)

/-- Takes a name for a node, port or connection. -/
def Ids.name : Fresh String := fun ids =>
  (Uuid.name ids.next, ⟨ids.next + 1⟩)

end Workflow
