import Mathlib.Algebra.Group.Nat.Defs
import Workflow.Uuid

/-! Names from a supply are new.

No two numbers have the same name (`Uuid.name_injective`).  So names that are
taken from a supply one after another are distinct, and different from all that
were taken before.
-/

namespace Workflow

namespace Text

theorem length_hexDigits (n count : Nat) : (hexDigits n count).length = count := by
  induction count generalizing n with
  | zero => rfl
  | succ count ih => simp [hexDigits, ih]

theorem digitChar_injective {first second : Nat} (small : first < 16) (other : second < 16)
    (same : Nat.digitChar first = Nat.digitChar second) : first = second := by
  have distinct : ∀ a : Fin 16, ∀ b : Fin 16, Nat.digitChar a = Nat.digitChar b → a = b := by
    decide
  exact congrArg Fin.val (distinct ⟨first, small⟩ ⟨second, other⟩ same)

theorem digitChar_ne_hyphen {digit : Nat} (small : digit < 16) : Nat.digitChar digit ≠ '-' := by
  have none : ∀ a : Fin 16, Nat.digitChar a ≠ '-' := by
    decide
  exact none ⟨digit, small⟩

/-- Digits tell the numbers apart that have no more of them. -/
theorem hexDigits_injective {first second count : Nat} (small : first < 16 ^ count)
    (other : second < 16 ^ count) (same : hexDigits first count = hexDigits second count) :
    first = second := by
  induction count generalizing first second with
  | zero => omega
  | succ count ih =>
      rw [Nat.pow_succ] at small other
      obtain ⟨higher, last⟩ := List.append_inj' same rfl
      have quotients := ih (by omega) (by omega) higher
      have remainders := digitChar_injective (by omega) (by omega) (List.singleton_inj.mp last)
      omega

theorem hyphen_not_mem_hexDigits (n count : Nat) : '-' ∉ hexDigits n count := by
  induction count generalizing n with
  | zero => simp [hexDigits]
  | succ count ih =>
      have last := digitChar_ne_hyphen (Nat.mod_lt n (by decide : 0 < 16))
      simp only [hexDigits, List.mem_append, List.mem_singleton, not_or]
      exact ⟨ih _, last.symm⟩

end Text

namespace Uuid

/-- The groups of digits make up all of them. -/
theorem groups_eq (digits : List Char) :
    digits.take 8 ++ ((digits.drop 8).take 4 ++ ((digits.drop 12).take 4 ++
      ((digits.drop 16).take 4 ++ digits.drop 20))) = digits := by
  rw [show digits.drop 20 = (digits.drop 16).drop 4 by simp, List.take_append_drop,
    show digits.drop 16 = (digits.drop 12).drop 4 by simp, List.take_append_drop,
    show digits.drop 12 = (digits.drop 8).drop 4 by simp, List.take_append_drop,
    List.take_append_drop]

/-- Without its hyphens a grouped text is the digits again. -/
theorem filter_group {digits : List Char} (plain : '-' ∉ digits) :
    (group digits).filter (· ≠ '-') = digits := by
  have kept : ∀ part : List Char, part ⊆ digits → part.filter (· ≠ '-') = part := by
    intro part inside
    refine List.filter_eq_self.mpr fun c member => ?_
    simpa using fun same : c = '-' => plain (same ▸ inside member)
  simp only [group, List.append_assoc, List.cons_append, List.filter_append, List.filter_cons,
    kept _ (List.take_subset ..), kept _ (List.drop_subset ..),
    kept _ (List.Subset.trans (List.take_subset ..) (List.drop_subset ..))]
  simpa using groups_eq digits

theorem group_injective {first second : List Char} (plain : '-' ∉ first) (other : '-' ∉ second)
    (same : group first = group second) : first = second := by
  rw [← filter_group plain, same, filter_group other]

theorem length_group {digits : List Char} (long : 20 ≤ digits.length) :
    (group digits).length = digits.length + 4 := by
  simp only [group, List.length_append, List.length_cons, List.length_take, List.length_drop]
  omega

theorem marked_injective {first second : Nat} (same : marked first = marked second) :
    first = second := by
  simp only [marked, Nat.shiftRight_eq_div_pow, Nat.shiftLeft_eq] at same
  omega

theorem marked_lt (bits : Nat) : bits < 16 ^ max 32 (bits.log2 / 4 + 1) := by
  calc
    bits < 2 ^ (bits.log2 + 1) := Nat.lt_log2_self
    _ ≤ 2 ^ (4 * max 32 (bits.log2 / 4 + 1)) := Nat.pow_le_pow_right (by decide) (by omega)
    _ = 16 ^ max 32 (bits.log2 / 4 + 1) := by rw [Nat.pow_mul]

theorem name_injective {first second : Nat} (same : name first = name second) :
    first = second := by
  have grouped := String.ofList_injective same
  have digits := group_injective (Text.hyphen_not_mem_hexDigits _ _)
    (Text.hyphen_not_mem_hexDigits _ _) grouped
  have counts := congrArg List.length digits
  simp only [Text.length_hexDigits] at counts
  rw [counts] at digits
  refine marked_injective (Text.hexDigits_injective ?_ (marked_lt _) digits)
  rw [← counts]
  exact marked_lt _

/-- The bits of an identifier give back the last 122 of its number. -/
theorem marked_mod (n : Nat) :
    marked n % 2 ^ 128 % 2 ^ 62 = n % 2 ^ 62 ∧
      marked n % 2 ^ 128 / 2 ^ 64 % 2 ^ 12 = n / 2 ^ 62 % 2 ^ 12 ∧
      marked n % 2 ^ 128 / 2 ^ 80 = n / 2 ^ 74 % 2 ^ 48 := by
  have low : n % 2 ^ 62 < 2 ^ 62 := Nat.mod_lt _ (by decide)
  have middle : n / 2 ^ 62 % 2 ^ 12 < 2 ^ 12 := Nat.mod_lt _ (by decide)
  simp only [marked, Nat.shiftRight_eq_div_pow, Nat.shiftLeft_eq, Nat.one_mul]
  generalize n % 2 ^ 62 = l at low
  generalize n / 2 ^ 62 % 2 ^ 12 = m at middle
  generalize n / 2 ^ 74 = h
  omega

/-- Random identifiers are distinct as long as 122 bits tell their numbers apart. -/
theorem random_ne {first second : Nat} (before : first < second)
    (near : second < first + 2 ^ 122) : random first ≠ random second := by
  intro same
  have bits : marked first % 2 ^ 128 = marked second % 2 ^ 128 := by
    simpa [random] using congrArg (fun id : Uuid => id.bits.toNat) same
  obtain ⟨low, middle, high⟩ := marked_mod first
  rw [bits] at low middle high
  rw [(marked_mod second).1] at low
  rw [(marked_mod second).2.1] at middle
  rw [(marked_mod second).2.2] at high
  omega

theorem length_name (number : Nat) : 36 ≤ (name number).length := by
  have digits := Text.length_hexDigits (marked number) (max 32 ((marked number).log2 / 4 + 1))
  have grouped := length_group (by omega : 20 ≤ (Text.hexDigits (marked number)
    (max 32 ((marked number).log2 / 4 + 1))).length)
  simp only [name, String.length_ofList, grouped, digits]
  omega

end Uuid

/-- Names that a supply gives out between two of its states, each of them once. -/
structure Named (ids later : Ids) (names : List String) : Prop where
  distinct : names.Nodup
  grows : ids.next ≤ later.next
  numbered : ∀ name ∈ names, ∃ number,
    ids.next ≤ number ∧ number < later.next ∧ name = Uuid.name number

/-- No name that a supply has still to give is in use. -/
def Ids.Unused (ids : Ids) (used : List String) : Prop :=
  ∀ number, ids.next ≤ number → Uuid.name number ∉ used

theorem Ids.unused_of_short {used : List String} (ids : Ids)
    (short : ∀ name ∈ used, name.length < 36) : ids.Unused used := by
  intro number _ member
  have long := Uuid.length_name number
  have bound := short _ member
  omega

namespace Named

variable {ids middle later : Ids} {first second names used : List String}

theorem none (ids : Ids) : Named ids ids [] :=
  ⟨.nil, Nat.le_refl _, by simp⟩

theorem one (ids : Ids) : Named ids ⟨ids.next + 1⟩ [Uuid.name ids.next] where
  distinct := by simp
  grows := Nat.le_succ _
  numbered name member :=
    ⟨ids.next, Nat.le_refl _, Nat.lt_succ_self _, List.mem_singleton.mp member⟩

theorem append (earlier : Named ids middle first) (further : Named middle later second) :
    Named ids later (first ++ second) where
  distinct := by
    refine List.nodup_append.mpr ⟨earlier.distinct, further.distinct, ?_⟩
    intro name before _ after same
    obtain rfl := same
    obtain ⟨number, _, below, named⟩ := earlier.numbered name before
    obtain ⟨other, above, _, again⟩ := further.numbered name after
    have same := Uuid.name_injective (named.symm.trans again)
    omega
  grows := Nat.le_trans earlier.grows further.grows
  numbered name member := by
    have before := earlier.grows
    have after := further.grows
    rcases List.mem_append.mp member with inside | inside
    · obtain ⟨number, above, below, named⟩ := earlier.numbered name inside
      exact ⟨number, above, by omega, named⟩
    · obtain ⟨number, above, below, named⟩ := further.numbered name inside
      exact ⟨number, by omega, below, named⟩

theorem perm (named : Named ids later first) (same : first.Perm second) :
    Named ids later second :=
  ⟨same.nodup_iff.mp named.distinct, named.grows,
    fun name member => named.numbered name (same.mem_iff.mpr member)⟩

theorem sublist (named : Named ids later first) (part : second.Sublist first) :
    Named ids later second :=
  ⟨named.distinct.sublist part, named.grows,
    fun name member => named.numbered name (part.subset member)⟩

theorem notMem (named : Named ids later names) (unused : ids.Unused used) {name : String}
    (member : name ∈ names) : name ∉ used := by
  obtain ⟨number, above, _, rfl⟩ := named.numbered name member
  exact unused number above

/-- After new names are in use, those to come are not. -/
theorem unused (named : Named ids later names) (unused : ids.Unused used) :
    later.Unused (used ++ names) := by
  intro number above member
  have grows := named.grows
  rcases List.mem_append.mp member with inside | inside
  · exact unused number (by omega) inside
  · obtain ⟨other, _, below, same⟩ := named.numbered _ inside
    have again := Uuid.name_injective same
    omega

end Named

theorem Ids.Unused.mono {ids later : Ids} {used fewer : List String} (unused : ids.Unused used)
    (grows : ids.next ≤ later.next) (part : fewer ⊆ used) : later.Unused fewer :=
  fun number above member => unused number (Nat.le_trans grows above) (part member)

end Workflow
