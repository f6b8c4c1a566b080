/-! Finite maps from names to values, kept as lists of pairs in ascending key
order.

The order of keys is the order of code points, so a map has one representation
and two maps with the same entries are equal.  `insert` keeps the order,
`get?` reads a map, and the lemmas below say how the two meet.
-/

namespace Workflow

/-- Entries of a map.  `Ordered` says that the keys ascend strictly. -/
abbrev Fields (α : Type u) := List (String × α)

namespace Fields

variable {α : Type u} {β : Type v}

def keys (fields : Fields α) : List String :=
  fields.map (·.1)

def Ordered (fields : Fields α) : Prop :=
  fields.keys.Pairwise (· < ·)

def get? : Fields α → String → Option α
  | [], _ => none
  | (name, value) :: rest, key =>
      if name = key then some value else Fields.get? rest key

def contains (fields : Fields α) (key : String) : Bool :=
  (Fields.get? fields key).isSome

/-- Adds an entry at its place in the order, or replaces the value of its key. -/
def insert (key : String) (value : α) : Fields α → Fields α
  | [] => [(key, value)]
  | (name, old) :: rest =>
      if key < name then (key, value) :: (name, old) :: rest
      else if key = name then (key, value) :: rest
      else (name, old) :: Fields.insert key value rest

def erase (fields : Fields α) (key : String) : Fields α :=
  fields.filter fun entry => entry.1 != key

/-- Adds every entry of `extra`; its values win. -/
def merge (fields extra : Fields α) : Fields α :=
  extra.foldl (fun merged entry => Fields.insert entry.1 entry.2 merged) fields

/-- The map of a list of entries; of two values for one key the later stays. -/
def ofList (entries : List (String × α)) : Fields α :=
  Fields.merge [] entries

def mapValues (f : α → β) (fields : Fields α) : Fields β :=
  fields.map fun entry => (entry.1, f entry.2)

@[simp] theorem get?_nil (key : String) : Fields.get? ([] : Fields α) key = none :=
  rfl

theorem get?_cons (name key : String) (value : α) (rest : Fields α) :
    Fields.get? ((name, value) :: rest) key =
      if name = key then some value else Fields.get? rest key :=
  rfl

/-- What was put under a key is read back. -/
@[simp] theorem get?_insert_self (key : String) (value : α) (fields : Fields α) :
    Fields.get? (Fields.insert key value fields) key = some value := by
  induction fields with
  | nil => simp [insert, get?]
  | cons entry rest inductionHypothesis =>
      obtain ⟨name, old⟩ := entry
      simp only [insert]
      split
      · simp [get?]
      · split
        · simp [get?]
        · rename_i differs
          simp [get?, Ne.symm differs, inductionHypothesis]

/-- Putting a value under one key leaves the others as they were. -/
theorem get?_insert_ne {key other : String} (differs : key ≠ other) (value : α)
    (fields : Fields α) :
    Fields.get? (Fields.insert key value fields) other = Fields.get? fields other := by
  induction fields with
  | nil => simp [insert, get?, differs]
  | cons entry rest inductionHypothesis =>
      obtain ⟨name, old⟩ := entry
      simp only [insert]
      split
      · simp [get?, differs]
      · split
        · rename_i same
          subst same
          simp [get?, differs]
        · simp [get?, inductionHypothesis]

theorem get?_insert (key other : String) (value : α) (fields : Fields α) :
    Fields.get? (Fields.insert key value fields) other =
      if key = other then some value else Fields.get? fields other := by
  by_cases same : key = other
  · subst same
    simp
  · simp [same, get?_insert_ne same]

/-- Of two values that are put under a key, the second stays. -/
@[simp] theorem insert_insert_self (key : String) (first second : α) (fields : Fields α) :
    Fields.insert key second (Fields.insert key first fields) = Fields.insert key second fields := by
  induction fields with
  | nil => simp [insert]
  | cons entry rest inductionHypothesis =>
      obtain ⟨name, old⟩ := entry
      simp only [insert]
      split
      next => simp [insert]
      next after =>
        split
        next same => simp [insert]
        next differs => simp [insert, after, differs, inductionHypothesis]

/-- An erased key is gone, and no other is touched. -/
theorem get?_erase (fields : Fields α) (key other : String) :
    Fields.get? (Fields.erase fields key) other =
      if key = other then none else Fields.get? fields other := by
  induction fields with
  | nil => simp [erase]
  | cons entry rest inductionHypothesis =>
      obtain ⟨name, value⟩ := entry
      simp only [erase] at inductionHypothesis ⊢
      by_cases removed : name = key
      · subst removed
        simp only [List.filter_cons, bne_self_eq_false, Bool.false_eq_true, ↓reduceIte,
          inductionHypothesis, get?_cons]
        split <;> simp_all
      · have kept : (name != key) = true := by simpa using removed
        simp only [List.filter_cons, kept, ↓reduceIte, get?_cons, inductionHypothesis]
        by_cases wanted : name = other
        · subst wanted
          simp [Ne.symm removed]
        · simp [wanted]

theorem get?_append (fields extra : Fields α) (key : String) :
    Fields.get? (fields ++ extra) key = (Fields.get? fields key).or (Fields.get? extra key) := by
  induction fields with
  | nil => rfl
  | cons entry rest ih =>
      rw [List.cons_append, get?_cons, get?_cons, ih]
      split <;> rfl

/-- Of the values that are added for a key the last stays. -/
theorem get?_merge (fields extra : Fields α) (key : String) :
    Fields.get? (Fields.merge fields extra) key =
      (Fields.get? extra.reverse key).or (Fields.get? fields key) := by
  induction extra generalizing fields with
  | nil => rfl
  | cons entry rest ih =>
      have step : Fields.merge fields (entry :: rest) =
          Fields.merge (Fields.insert entry.1 entry.2 fields) rest := rfl
      rw [step, ih, get?_insert, List.reverse_cons, get?_append, get?_cons, Option.or_assoc]
      split <;> rfl

theorem get?_ofList (entries : List (String × α)) (key : String) :
    Fields.get? (Fields.ofList entries) key = Fields.get? entries.reverse key :=
  (get?_merge [] entries key).trans Option.or_none

/-- Where no key repeats, every entry is what is read under its key. -/
theorem get?_of_nodup {fields : Fields α} (distinct : fields.keys.Nodup) {entry : String × α}
    (member : entry ∈ fields) : Fields.get? fields entry.1 = some entry.2 := by
  induction fields with
  | nil => contradiction
  | cons first rest ih =>
      obtain ⟨apart, others⟩ := List.pairwise_cons.mp distinct
      rcases List.mem_cons.mp member with rfl | later
      · exact if_pos rfl
      · rw [get?_cons, if_neg (apart entry.1 (List.mem_map_of_mem later))]
        exact ih others later

theorem mem_keys_iff {fields : Fields α} {key : String} :
    key ∈ fields.keys ↔ (Fields.get? fields key).isSome := by
  induction fields with
  | nil => simp [keys]
  | cons entry rest ih =>
      have split : Fields.keys (entry :: rest) = entry.1 :: Fields.keys rest := rfl
      rw [split, List.mem_cons, ih, get?_cons]
      by_cases same : entry.1 = key
      · simp [same]
      · simp [same, Ne.symm same]

theorem mem_keys_insert {fields : Fields α} {key other : String} {value : α} :
    other ∈ (Fields.insert key value fields).keys ↔ other = key ∨ other ∈ fields.keys := by
  rw [mem_keys_iff, mem_keys_iff, get?_insert]
  by_cases same : key = other
  · simp [same]
  · simp [same, Ne.symm same]

namespace Ordered

variable {fields : Fields α}

theorem nil : Ordered ([] : Fields α) :=
  List.Pairwise.nil

/-- Adding an entry keeps the order. -/
theorem insert (ordered : Ordered fields) (key : String) (value : α) :
    Ordered (Fields.insert key value fields) := by
  induction fields with
  | nil => exact List.pairwise_singleton ..
  | cons entry rest ih =>
      obtain ⟨name, old⟩ := entry
      obtain ⟨least, others⟩ := List.pairwise_cons.mp ordered
      unfold Fields.insert
      split
      next before =>
        refine .cons (fun other member => ?_) ordered
        rcases List.mem_cons.mp member with rfl | later
        · exact before
        · exact String.lt_trans before (least other later)
      next unplaced =>
        split
        next same => exact same ▸ ordered
        next distinct =>
          refine .cons (fun other member => ?_) (ih others)
          rcases mem_keys_insert.mp member with rfl | later
          · exact Decidable.by_contra fun still => distinct <|
              String.le_antisymm (String.not_lt.mp still) (String.not_lt.mp unplaced)
          · exact least other later

theorem erase (ordered : Ordered fields) (key : String) : Ordered (Fields.erase fields key) :=
  ordered.sublist (List.filter_sublist.map _)

theorem merge (ordered : Ordered fields) (extra : Fields α) :
    Ordered (Fields.merge fields extra) := by
  induction extra generalizing fields with
  | nil => exact ordered
  | cons entry rest ih => exact ih (ordered.insert entry.1 entry.2)

theorem nodup (ordered : Ordered fields) : fields.keys.Nodup :=
  ordered.imp String.ne_of_lt

/-- In an ordered map every entry is what is read under its key. -/
theorem get?_of_mem (ordered : Ordered fields) {entry : String × α} (member : entry ∈ fields) :
    Fields.get? fields entry.1 = some entry.2 :=
  get?_of_nodup ordered.nodup member

end Ordered

end Fields

end Workflow
