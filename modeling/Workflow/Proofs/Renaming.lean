import Mathlib.Data.List.Induction
import Mathlib.Data.List.Nodup
import Workflow.Subflow

/-! Renaming the fields of a payload.

A mapping gives new names to fields.  It is carried out entry by entry, in the order of
the old names, on an object that already has the new names of earlier entries.  So an
entry may take up what an earlier one has put down, and the value that was there before
is lost.  `Mapping.apply_renames_iff` says that nothing else goes wrong: where no entry
does so, all fields are renamed at once.
-/

namespace Workflow

namespace Mapping

variable {mapping : Mapping} {before middle : Fields Json}

/-- What all entries of a mapping make of an object at once: each field that is there
goes under its new name, whatever becomes of other fields. -/
structure Renames (mapping : Mapping) (before after : Fields Json) : Prop where
  moved : ∀ entry ∈ mapping, ∀ value, Fields.get? before entry.1 = some value →
    Fields.get? after entry.2 = some value
  kept : ∀ key value, Fields.get? before key = some value → key ∉ mapping.keys →
    (∀ entry ∈ mapping, (Fields.get? before entry.1).isSome → entry.2 ≠ key) →
      Fields.get? after key = some value
  only : ∀ key, (Fields.get? after key).isSome →
    (∃ entry ∈ mapping, entry.2 = key ∧ (Fields.get? before entry.1).isSome) ∨
      (Fields.get? before key).isSome ∧ key ∉ mapping.keys

/-- Whether the new name of a field that is there is the old name of a later entry. -/
def HandsOn (mapping : Mapping) (fields : Fields Json) : Prop :=
  ∃ earlier ∈ mapping, ∃ later ∈ mapping, earlier.1 < later.1 ∧ earlier.2 = later.1 ∧
    (Fields.get? fields earlier.1).isSome

def renameAll (mapping : Mapping) (fields : Fields Json) : Fields Json :=
  mapping.foldl (fun fields entry => renameField fields entry.1 entry.2) fields

theorem apply_object (mapping : Mapping) (fields : Fields Json) :
    mapping.apply (.object fields) = .object (mapping.renameAll fields) :=
  rfl

theorem renameField_present {fields : Fields Json} {old : String} {value : Json}
    (present : Fields.get? fields old = some value) (new key : String) :
    Fields.get? (renameField fields old new) key =
      if new = key then some value else if old = key then none else Fields.get? fields key := by
  rw [renameField, present]
  dsimp only
  rw [Fields.get?_insert, Fields.get?_erase]

theorem renameField_absent {fields : Fields Json} {old : String}
    (absent : Fields.get? fields old = none) (new : String) :
    renameField fields old new = fields := by
  rw [renameField, absent]

theorem renameField_ordered {fields : Fields Json} (ordered : fields.Ordered) (old new : String) :
    (renameField fields old new).Ordered := by
  unfold renameField
  split
  · exact (ordered.erase old).insert new _
  · exact ordered

theorem renameAll_ordered {fields : Fields Json} (ordered : fields.Ordered) :
    (mapping.renameAll fields).Ordered := by
  induction mapping generalizing fields with
  | nil => exact ordered
  | cons entry rest ih => exact ih (renameField_ordered ordered entry.1 entry.2)

theorem Renames.nothing (fields : Fields Json) : Renames [] fields fields where
  moved := nofun
  kept _ _ present _ _ := present
  only _ present := .inr ⟨present, List.not_mem_nil⟩

/-- A field that no entry has put down is as it was before. -/
theorem Renames.untouched (renames : Renames mapping before middle) {key : String}
    (other : key ∉ mapping.keys)
    (free : ∀ entry ∈ mapping, (Fields.get? before entry.1).isSome → entry.2 ≠ key) :
    Fields.get? middle key = Fields.get? before key := by
  cases present : Fields.get? before key with
  | some value => exact renames.kept key value present other free
  | none =>
      rw [← Option.not_isSome_iff_eq_none]
      intro appeared
      rcases renames.only key appeared with ⟨entry, member, same, given⟩ | ⟨there, _⟩
      · exact free entry member given same
      · simp [present] at there

theorem keys_concat {entry : String × String} {key : String} :
    key ∉ Fields.keys (mapping ++ [entry]) ↔ key ∉ mapping.keys ∧ entry.1 ≠ key := by
  simp [Fields.keys, eq_comm]

/-- One more entry for a field that is not there changes nothing. -/
theorem Renames.skip (renames : Renames mapping before middle) {entry : String × String}
    (absent : Fields.get? before entry.1 = none) : Renames (mapping ++ [entry]) before middle where
  moved earlier member value given := by
    rcases List.mem_append.mp member with old | new
    · exact renames.moved earlier old value given
    · obtain rfl := List.mem_singleton.mp new
      simp [absent] at given
  kept key value given away free :=
    renames.kept key value given (keys_concat.mp away).1 fun earlier old =>
      free earlier (List.mem_append_left _ old)
  only key appeared := by
    rcases renames.only key appeared with ⟨earlier, old, given⟩ | ⟨there, away⟩
    · exact .inl ⟨earlier, List.mem_append_left _ old, given⟩
    · refine .inr ⟨there, keys_concat.mpr ⟨away, ?_⟩⟩
      rintro rfl
      simp [absent] at there

/-- One more entry moves a field that is there, if its own name and its new one are free. -/
theorem Renames.move (renames : Renames mapping before middle) {entry : String × String}
    {value : Json} (present : Fields.get? before entry.1 = some value)
    (left : Fields.get? middle entry.1 = some value)
    (apart : ∀ earlier ∈ mapping, earlier.2 ≠ entry.2)
    (free : ∀ earlier ∈ mapping, (Fields.get? before earlier.1).isSome → earlier.2 ≠ entry.1) :
    Renames (mapping ++ [entry]) before (renameField middle entry.1 entry.2) where
  moved earlier member old given := by
    rcases List.mem_append.mp member with before | new
    · rw [renameField_present left, if_neg (apart earlier before).symm,
        if_neg (free earlier before (by simp [given])).symm]
      exact renames.moved earlier before old given
    · obtain rfl := List.mem_singleton.mp new
      rw [renameField_present left, if_pos rfl, ← given, present]
  kept key old given away free := by
    obtain ⟨unnamed, differs⟩ := keys_concat.mp away
    rw [renameField_present left, if_neg (free entry (by simp) (by simp [present])),
      if_neg differs]
    exact renames.kept key old given unnamed fun earlier old =>
      free earlier (List.mem_append_left _ old)
  only key appeared := by
    rw [renameField_present left] at appeared
    split at appeared
    next here => exact .inl ⟨entry, by simp, here, by simp [present]⟩
    next =>
      split at appeared
      next => contradiction
      next differs =>
        rcases renames.only key appeared with ⟨earlier, old, given⟩ | ⟨there, away⟩
        · exact .inl ⟨earlier, List.mem_append_left _ old, given⟩
        · exact .inr ⟨there, keys_concat.mpr ⟨away, differs⟩⟩

/-- One more entry is carried out on what the earlier ones have left. -/
theorem Renames.concat (renames : Renames mapping before middle) {entry : String × String}
    (other : entry.1 ∉ mapping.keys) (apart : ∀ earlier ∈ mapping, earlier.2 ≠ entry.2)
    (free : ∀ earlier ∈ mapping, (Fields.get? before earlier.1).isSome → earlier.2 ≠ entry.1) :
    Renames (mapping ++ [entry]) before (renameField middle entry.1 entry.2) := by
  have same := renames.untouched other free
  cases present : Fields.get? before entry.1 with
  | none =>
      rw [renameField_absent (same.trans present)]
      exact renames.skip present
  | some value => exact renames.move present (same.trans present) apart free

/-- The entries are carried out one after another; the induction is on those done, so that
each step meets the object that the earlier ones have left. -/
theorem renameAll_renames (sources : mapping.keys.Nodup) (targets : (mapping.map (·.2)).Nodup)
    (free : mapping.Pairwise fun earlier later =>
      (Fields.get? before earlier.1).isSome → earlier.2 ≠ later.1) :
    Renames mapping before (mapping.renameAll before) := by
  induction mapping using List.reverseRecOn with
  | nil => exact .nothing before
  | append_singleton done entry ih =>
      rw [Fields.keys, List.map_append, List.nodup_append'] at sources
      rw [List.map_append, List.nodup_append'] at targets
      obtain ⟨earlier, _, onward⟩ := List.pairwise_append.mp free
      rw [renameAll, List.foldl_append]
      refine (ih sources.1 targets.1 earlier).concat ?_ ?_ ?_
      · exact fun again => sources.2.2 again (by simp)
      · exact fun other member same =>
          targets.2.2 (List.mem_map_of_mem member) (by simp [same])
      · exact fun other member => onward other member entry (by simp)

/-- What is not there, and is the new name of no entry, does not come to be there. -/
theorem renameAll_absent {fields : Fields Json} {key : String}
    (absent : Fields.get? fields key = none) (others : ∀ entry ∈ mapping, entry.2 ≠ key) :
    Fields.get? (mapping.renameAll fields) key = none := by
  induction mapping generalizing fields with
  | nil => exact absent
  | cons entry rest ih =>
      obtain ⟨other, others⟩ := List.forall_mem_cons.mp others
      have still : Fields.get? (renameField fields entry.1 entry.2) key = none := by
        cases present : Fields.get? fields entry.1 with
        | none => rwa [renameField_absent present]
        | some value =>
            rw [renameField_present present, if_neg other, absent]
            exact ite_self none
      exact ih still others

/-- The old name of an entry is gone afterwards, unless that or a later entry gives it as a
new name. -/
theorem renameAll_gone {front back : Mapping} {entry : String × String} (fields : Fields Json)
    (others : ∀ later ∈ entry :: back, later.2 ≠ entry.1) :
    Fields.get? (Mapping.renameAll (front ++ entry :: back) fields) entry.1 = none := by
  obtain ⟨differs, others⟩ := List.forall_mem_cons.mp others
  have split : Mapping.renameAll (front ++ entry :: back) fields =
      back.renameAll (renameField (front.renameAll fields) entry.1 entry.2) := by
    rw [renameAll, List.foldl_append]
    rfl
  rw [split]
  refine renameAll_absent ?_ others
  generalize front.renameAll fields = middle
  cases present : Fields.get? middle entry.1 with
  | none => rwa [renameField_absent present]
  | some value => rw [renameField_present present, if_neg differs, if_pos rfl]

/-- What is handed on is missing under the name that it was to have. -/
theorem not_renames_of_handsOn (ordered : mapping.Ordered) (targets : (mapping.map (·.2)).Nodup)
    (handsOn : mapping.HandsOn before) : ¬ Renames mapping before (mapping.renameAll before) := by
  obtain ⟨earlier, first, later, second, sooner, same, present⟩ := handsOn
  obtain ⟨value, given⟩ := Option.isSome_iff_exists.mp present
  obtain ⟨front, back, rfl⟩ := List.append_of_mem second
  have gone : Fields.get? (Mapping.renameAll (front ++ later :: back) before) later.1 = none := by
    refine renameAll_gone before fun other member clash => ?_
    have whole : other ∈ front ++ later :: back := List.mem_append_right _ member
    have alike := List.inj_on_of_nodup_map targets whole first (clash.trans same.symm)
    rw [Fields.Ordered, Fields.keys, List.map_append, List.map_cons] at ordered
    have least := (List.pairwise_cons.mp (List.pairwise_append.mp ordered).2.1).1
    rcases List.mem_cons.mp member with here | behind
    · rw [← alike, here] at sooner
      exact String.lt_irrefl _ sooner
    · have after := least other.1 (List.mem_map_of_mem behind)
      rw [alike] at after
      exact String.lt_irrefl _ (String.lt_trans sooner after)
  intro renames
  have moved := renames.moved earlier first value given
  rw [same, gone] at moved
  contradiction

/-- A mapping with distinct new names renames all fields of an object at once, so that each
has the value under its new name that it had under its old one, exactly where it hands no
field on: where no field that is there gets a new name that a later entry renames. -/
theorem apply_renames_iff (ordered : mapping.Ordered) (targets : (mapping.map (·.2)).Nodup)
    (fields : Fields Json) :
    ∃ after, mapping.apply (.object fields) = .object after ∧
      (fields.Ordered → Fields.Ordered after) ∧
      (mapping.Renames fields after ↔ ¬ mapping.HandsOn fields) := by
  refine ⟨_, mapping.apply_object fields, renameAll_ordered, fun renames handsOn =>
    not_renames_of_handsOn ordered targets handsOn renames, fun apart => ?_⟩
  have sooner : mapping.Pairwise fun earlier later => earlier.1 < later.1 :=
    List.pairwise_map.mp ordered
  refine renameAll_renames ordered.nodup targets (sooner.imp_of_mem ?_)
  intro earlier later first second before present same
  exact apart ⟨earlier, first, later, second, before, same, present⟩

/-- A mapping whose entries pass fields on to names that were renamed before. -/
def retiring : Mapping :=
  [("b", "a"), ("c", "b")]

theorem apply_of_retiring_renames :
    retiring.Ordered ∧ (retiring.map (·.2)).Nodup ∧
    ∃ after, retiring.apply (.object [("a", .nat 1), ("b", .nat 2), ("c", .nat 3)]) =
        .object after ∧
      retiring.Renames [("a", .nat 1), ("b", .nat 2), ("c", .nat 3)] after := by
  have ordered : retiring.Ordered := by
    unfold Fields.Ordered
    decide
  have targets : (retiring.map (·.2)).Nodup := by decide
  obtain ⟨after, same, _, exact⟩ :=
    apply_renames_iff ordered targets [("a", .nat 1), ("b", .nat 2), ("c", .nat 3)]
  refine ⟨ordered, targets, after, same, exact.mpr ?_⟩
  unfold HandsOn
  decide

/-- Of two fields that change their names one is lost, and the other is not where it should
be; and in a chain the first field goes all the way. -/
theorem apply_of_exchange_loses :
    (Mapping.apply [("a", "b"), ("b", "a")] (.object [("a", .nat 1), ("b", .nat 2)]) =
        .object [("a", .nat 1)] ∧
      ¬ Renames [("a", "b"), ("b", "a")] [("a", .nat 1), ("b", .nat 2)] [("a", .nat 1)]) ∧
    Mapping.apply [("a", "b"), ("b", "c")] (.object [("a", .nat 1)]) =
        .object [("c", .nat 1)] ∧
      ¬ Renames [("a", "b"), ("b", "c")] [("a", .nat 1)] [("c", .nat 1)] := by
  have lost (after : Fields Json) (mapping : Mapping) (fields : Fields Json)
      (entry : ("a", "b") ∈ mapping) (here : Fields.get? fields "a" = some (.nat 1))
      (away : Fields.get? after "b" = none) : ¬ Renames mapping fields after := by
    intro renames
    have moved := renames.moved _ entry _ here
    rw [away] at moved
    contradiction
  exact ⟨⟨rfl, lost _ _ _ (by decide) rfl rfl⟩, rfl, lost _ _ _ (by decide) rfl rfl⟩

end Mapping

end Workflow
