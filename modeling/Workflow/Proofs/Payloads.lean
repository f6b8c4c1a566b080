import Mathlib.Algebra.Group.Int.Defs
import Workflow.Document.Execution

/-! Readers and writers of payload values that fit.

`Json.Faithful` says that what is written for a sound value is read back as that
value, and that only sound values are read.  Lists, maps and the fields of
records hand it on from their parts, whether a field was given, was null or was
left out.
-/

namespace Workflow

/-- A number that a text can give. -/
def Number.Proper : Number → Prop
  | .int value => -2 ^ 63 ≤ value ∧ value < 2 ^ 64
  | .float value => value.isFinite = true

theorem Fields.mem_of_get? {α : Type} {fields : Fields α} {key : String} {value : α}
    (found : Fields.get? fields key = some value) : (key, value) ∈ fields := by
  induction fields with
  | nil => contradiction
  | cons entry rest ih =>
      obtain ⟨name, first⟩ := entry
      rw [Fields.get?_cons] at found
      split at found
      · rename_i same
        cases found
        exact same ▸ List.mem_cons_self
      · exact List.mem_cons_of_mem _ (ih found)

namespace Json

/-- A payload value all of whose numbers are proper. -/
inductive Proper : Json → Prop where
  | null : Proper .null
  | bool (value : Bool) : Proper (.bool value)
  | number {value : Number} : value.Proper → Proper (.number value)
  | string (value : String) : Proper (.string value)
  | array {items : List Json} : (∀ item ∈ items, Proper item) → Proper (.array items)
  | object {fields : Fields Json} : (∀ entry ∈ fields, Proper entry.2) → Proper (.object fields)

@[simp] theorem proper_null : Proper .null :=
  .null

@[simp] theorem proper_bool (value : Bool) : Proper (.bool value) :=
  .bool value

@[simp] theorem proper_string (value : String) : Proper (.string value) :=
  .string value

@[simp] theorem proper_number {value : Number} : Proper (.number value) ↔ value.Proper :=
  ⟨fun | .number proper => proper, .number⟩

@[simp] theorem proper_array {items : List Json} :
    Proper (.array items) ↔ ∀ item ∈ items, item.Proper :=
  ⟨fun | .array proper => proper, .array⟩

@[simp] theorem proper_object {fields : Fields Json} :
    Proper (.object fields) ↔ ∀ entry ∈ fields, entry.2.Proper :=
  ⟨fun | .object proper => proper, .object⟩

/-- A reader and a writer that fit.  What is read from a proper value is sound, and what is
sound is read back from what is written for it. -/
structure Faithful {α : Type} (read : Json → Option α) (write : α → Json)
    (sound : α → Prop) : Prop where
  sound_of_read {value : Json} {result : α} : value.Proper → read value = some result → sound result
  read_write {result : α} : sound result → read (write result) = some result

theorem forall_of_mapM {α β : Type} {read : α → Option β} {holds : β → Prop} {items : List α}
    {results : List β} (given : items.mapM read = some results)
    (each : ∀ item ∈ items, ∀ result, read item = some result → holds result) :
    ∀ result ∈ results, holds result := by
  induction items generalizing results with
  | nil =>
      cases given
      exact nofun
  | cons item rest ih =>
      obtain ⟨first, others⟩ := List.forall_mem_cons.mp each
      rw [List.mapM_cons] at given
      obtain ⟨result, here, given⟩ := Option.bind_eq_some_iff.mp given
      obtain ⟨later, there, same⟩ := Option.bind_eq_some_iff.mp given
      cases same
      exact List.forall_mem_cons.mpr ⟨first result here, ih there others⟩

namespace Faithful

variable {α : Type} {read : Json → Option α} {write : α → Json} {sound : α → Prop}

/-- What was read once is read again from what is written for it. -/
theorem reread (faithful : Faithful read write sound) {value : Json} (proper : value.Proper)
    {result : α} (given : read value = some result) : read (write result) = some result :=
  faithful.read_write (faithful.sound_of_read proper given)

theorem of_always (always : ∀ result, read (write result) = some result) :
    Faithful read write fun _ => True where
  sound_of_read _ _ := trivial
  read_write _ := always _

theorem string : Faithful string? Json.string fun _ => True :=
  of_always fun _ => rfl

theorem bool : Faithful bool? Json.bool fun _ => True :=
  of_always fun _ => rfl

theorem object : Faithful object? Json.object fun _ => True :=
  of_always fun _ => rfl

theorem list (faithful : Faithful read write sound) :
    Faithful (listOf? read) (fun items => .array (items.map write))
      fun items => ∀ item ∈ items, sound item where
  sound_of_read proper given := by
    cases proper with
    | array inside =>
        exact forall_of_mapM given fun item member _ => faithful.sound_of_read (inside item member)
    | _ => contradiction
  read_write {items} good := by
    show (items.map write).mapM read = some items
    induction items with
    | nil => rfl
    | cons item rest ih =>
        obtain ⟨first, others⟩ := List.forall_mem_cons.mp good
        simp [List.mapM_cons, faithful.read_write first, ih others]

theorem map (faithful : Faithful read write sound) :
    Faithful (mapOf? read) (fun fields => .object (fields.mapValues write))
      fun fields => ∀ entry ∈ fields, sound entry.2 where
  sound_of_read proper given := by
    cases proper with
    | object inside =>
        refine forall_of_mapM given fun entry member result found => ?_
        obtain ⟨value, here, rfl⟩ := Option.map_eq_some_iff.mp found
        exact faithful.sound_of_read (inside entry member) here
    | _ => contradiction
  read_write {fields} good := by
    show (fields.mapValues write).mapM _ = some fields
    induction fields with
    | nil => rfl
    | cons entry rest ih =>
        obtain ⟨first, others⟩ := List.forall_mem_cons.mp good
        have later := ih others
        simp only [Fields.mapValues] at later ⊢
        simp [List.mapM_cons, faithful.read_write first, later]

end Faithful

end Json

namespace Record

/-- A record whose fields have proper values. -/
def Proper (record : Record) : Prop :=
  ∀ name value, record.get? name = some value → value.Proper

theorem proper_of_ofJson? {names : List String} {value : Json} {record : Record}
    (proper : value.Proper) (read : ofJson? names value = some record) : record.Proper := by
  intro name found there
  cases proper with
  | object inside =>
      cases read
      exact inside (name, found) (Fields.mem_of_get? there)
  | @array items inside =>
      obtain ⟨_, same⟩ := Option.ite_none_right_eq_some.mp read
      cases same
      obtain ⟨_, _, entries, _⟩ := List.lookup_eq_some_iff.mp there
      have member : (name, found) ∈ names.zip items := by
        rw [entries]
        simp
      exact inside found (List.of_mem_zip member).2
  | _ => contradiction

section Fields

variable {α : Type} {read : Json → Option α} {write : α → Json} {sound : α → Prop}
  {record : Record} (faithful : Json.Faithful read write sound) (proper : record.Proper)
  {name : String}

include faithful proper

theorem sound_required {result : α} (given : record.required name read = some result) :
    sound result := by
  obtain ⟨value, found, here⟩ := Option.bind_eq_some_iff.mp given
  exact faithful.sound_of_read (proper name value found) here

theorem sound_defaulted {default result : α} (fallback : sound default)
    (given : record.defaulted name read default = some result) : sound result := by
  unfold defaulted at given
  split at given
  · rename_i value found
    exact faithful.sound_of_read (proper name value found) given
  · exact Option.some.inj given ▸ fallback

theorem sound_nullable {result : Option α} (given : record.nullable name read = some result) :
    ∀ found ∈ result, sound found := by
  unfold nullable at given
  split at given
  · cases given
    exact nofun
  · cases given
    exact nofun
  · rename_i value _ found
    obtain ⟨inner, here, rfl⟩ := Option.map_eq_some_iff.mp given
    intro same held
    cases held
    exact faithful.sound_of_read (proper name value found) here

theorem sound_optional {result : Option α} (given : record.optional name read = some result) :
    ∀ found ∈ result, sound found := by
  unfold optional at given
  split at given
  · contradiction
  · exact sound_nullable faithful proper given

end Fields

theorem nullable_ne_null {record : Record} {name : String} {result : Option Json}
    (given : record.nullable name some = some result) : result ≠ some .null := by
  unfold nullable at given
  split at given
  · cases given
    exact nofun
  · cases given
    exact nofun
  · rename_i plain _
    cases given
    exact fun same => plain (Option.some.inj same)

section Written

/-! An object that was written is read field by field. -/

variable {α β : Type} {record : Record} {name : String} {read : Json → Option α}
  {value : Json} {result default : α} {next : α → Option β} {answer : β}

theorem bind_ofJson? {names : List String} {fields : Fields Json} {next : Record → Option β}
    (goesOn : next ⟨Fields.get? fields, false⟩ = some answer) :
    (ofJson? names (.object fields) >>= next) = some answer :=
  goesOn

theorem bind_required (found : record.get? name = some value)
    (reads : read value = some result) (goesOn : next result = some answer) :
    (record.required name read >>= next) = some answer := by
  rw [required, found, Option.bind_some, reads, Option.bind_eq_bind, Option.bind_some, goesOn]

theorem bind_defaulted (found : record.get? name = some value)
    (reads : read value = some result) (goesOn : next result = some answer) :
    (record.defaulted name read default >>= next) = some answer := by
  unfold defaulted
  rw [found]
  dsimp only
  rw [reads, Option.bind_eq_bind, Option.bind_some, goesOn]

variable {write : α → Json} {option : Option α} {next : Option α → Option β}

theorem nullable_eq (found : record.get? name = some (Json.ofOption write option))
    (plain : ∀ value, write value ≠ .null)
    (reads : ∀ value ∈ option, read (write value) = some value) :
    record.nullable name read = some option := by
  unfold nullable
  rw [found]
  cases option with
  | none => rfl
  | some value =>
      split
      · contradiction
      · rename_i null
        exact absurd (Option.some.inj null) (plain value)
      · rename_i same
        rw [← Option.some.inj same, Json.ofOption, reads value rfl]
        rfl

theorem bind_nullable (found : record.get? name = some (Json.ofOption write option))
    (plain : ∀ value, write value ≠ .null)
    (reads : ∀ value ∈ option, read (write value) = some value)
    (goesOn : next option = some answer) :
    (record.nullable name read >>= next) = some answer := by
  rw [nullable_eq found plain reads, Option.bind_eq_bind, Option.bind_some, goesOn]

theorem bind_optional (found : record.get? name = some (Json.ofOption write option))
    (plain : ∀ value, write value ≠ .null)
    (reads : ∀ value ∈ option, read (write value) = some value)
    (goesOn : next option = some answer) :
    (record.optional name read >>= next) = some answer := by
  have given : ¬ (record.positional ∧ (record.get? name).isNone) := by simp [found]
  rw [optional, if_neg given]
  exact bind_nullable found plain reads goesOn

end Written

end Record

end Workflow
