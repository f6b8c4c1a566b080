import Mathlib.Data.Nat.Digits.Defs
import Mathlib.Tactic.Ring
import Workflow.Instant
import Workflow.Proofs.Naming

/-! Identifiers and dates are read back from the texts they are written as.

An identifier is read in many spellings and written in one
(`Uuid.ofText?_text`).  A date that a text gives stands in the calendar
(`Instant.inCalendar_of_ofText?`), and every date of the calendar is read back
from its own text, leap seconds and years with signs included
(`Instant.ofText?_text`).
-/

namespace Workflow

namespace Text

theorem hexValue?_digitChar {digit : Nat} (small : digit < 16) :
    hexValue? (Nat.digitChar digit) = some digit := by
  have all : ∀ digit : Fin 16, hexValue? (Nat.digitChar digit) = some digit.val := by
    decide
  exact all ⟨digit, small⟩

theorem hexNumber?_append (start : Nat) (digits : List Char) (c : Char) :
    hexNumber? start (digits ++ [c]) =
      (hexNumber? start digits).bind fun number =>
        (hexValue? c).map fun digit => number * 16 + digit := by
  induction digits generalizing start with
  | nil => cases found : hexValue? c <;> simp [hexNumber?, found]
  | cons first rest ih => cases found : hexValue? first <;> simp [hexNumber?, found, ih]

theorem hexNumber?_hexDigits (number count : Nat) :
    hexNumber? 0 (hexDigits number count) = some (number % 16 ^ count) := by
  induction count generalizing number with
  | zero => simp [hexDigits, hexNumber?, Nat.mod_one]
  | succ count ih =>
      have digit := hexValue?_digitChar (Nat.mod_lt number (by decide : 16 > 0))
      rw [hexDigits, hexNumber?_append, ih, digit, Option.bind_some, Option.map_some]
      rw [Nat.pow_succ, Nat.mul_comm (16 ^ count), Nat.mod_mul]
      ring_nf

end Text

namespace Uuid

theorem ungroup?_group {digits : List Char} (long : digits.length = 32) :
    ungroup? (group digits) = some digits := by
  have grouped := length_group (by omega : 20 ≤ digits.length)
  have parts : (group digits).take 8 ++ ((group digits).drop 9).take 4 ++
      ((group digits).drop 14).take 4 ++ ((group digits).drop 19).take 4 ++
        (group digits).drop 24 = digits := by
    simpa [group, List.take_append, List.drop_append, List.drop_take, long] using groups_eq digits
  unfold ungroup?
  rw [parts, if_pos ⟨by omega, rfl⟩]

theorem ofText?_text (id : Uuid) : ofText? id.text = some id := by
  have long : id.digits.length = 32 := Text.length_hexDigits _ _
  have grouped : (group id.digits).length = 36 := by
    rw [length_group (by omega), long]
  have number : ofDigits? id.digits = some id := by
    rw [ofDigits?, if_pos long, digits, Text.hexNumber?_hexDigits]
    have small : id.bits.toNat < 16 ^ 32 := id.bits.isLt
    rw [Nat.mod_eq_of_lt small, Option.map_some, BitVec.ofNat_toNat, BitVec.setWidth_eq]
  simp [ofText?, text, grouped, ofGrouped?, ungroup?_group long, number]

end Uuid

namespace Day

/-- The day of a year that starts in March, so many years into an era of 400 of them. -/
def ofMarch (era yearInEra inYear : Int) : Day :=
  let marchMonth := (5 * inYear + 2) / 153
  let day := inYear - (153 * marchMonth + 2) / 5 + 1
  let month := if marchMonth < 10 then marchMonth + 3 else marchMonth - 9
  let year := yearInEra + era * 400
  ⟨if month ≤ 2 then year + 1 else year, month.toNat, day.toNat⟩

theorem toDays_ofMarch {era yearInEra inYear : Int} (year : 0 ≤ yearInEra ∧ yearInEra < 400)
    (day : 0 ≤ inYear ∧ inYear < 366) :
    (ofMarch era yearInEra inYear).toDays =
      era * 146097 + (365 * yearInEra + yearInEra / 4 - yearInEra / 100) + inYear - 719468 := by
  have months : 0 ≤ (5 * inYear + 2) / 153 ∧ (5 * inYear + 2) / 153 < 12 := by omega
  have starts : 0 ≤ inYear - (153 * ((5 * inYear + 2) / 153) + 2) / 5 := by omega
  unfold ofMarch
  generalize (5 * inYear + 2) / 153 = month at *
  obtain ⟨least, most⟩ := months
  by_cases early : month < 10
  · have late : ¬ month + 3 ≤ 2 := by omega
    have number : ¬ (month + 3).toNat ≤ 2 := by omega
    simp only [early, late, number, toDays, if_true, if_false]
    omega
  · have late : month - 9 ≤ 2 := by omega
    have number : (month - 9).toNat ≤ 2 := by omega
    simp only [early, late, number, toDays, if_true, if_false]
    omega

/-- The days of an era up to one of them, without the leap days. -/
def plainDays (inEra : Int) : Int :=
  inEra - inEra / 1460 + inEra / 36524 - inEra / 146096

/-- The days of an era before one of its years. -/
def yearStart (year : Int) : Int :=
  365 * year + year / 4 - year / 100

theorem plainDays_mono {first second : Int} (later : first ≤ second) :
    plainDays first ≤ plainDays second := by
  unfold plainDays
  omega

theorem plainDays_yearStart (year : Fin 400) :
    365 * (year : Int) ≤ plainDays (yearStart year) ∧
      (0 < year → plainDays (yearStart year - 1) < 365 * year) := by
  revert year
  decide +kernel

/-- A day lies in the year that its number without leap days says. -/
theorem yearStart_bounds {inEra : Int} (least : 0 ≤ inEra) (most : inEra < 146097) :
    yearStart (plainDays inEra / 365) ≤ inEra ∧
      inEra < yearStart (plainDays inEra / 365) + 366 := by
  have years : 0 ≤ plainDays inEra / 365 ∧ plainDays inEra / 365 < 400 := by
    unfold plainDays
    omega
  have sound (year : Nat) (small : year < 400) := plainDays_yearStart ⟨year, small⟩
  simp only [Fin.lt_def] at sound
  generalize whole : plainDays inEra / 365 = year at *
  obtain ⟨year, rfl⟩ := Int.eq_ofNat_of_zero_le years.1
  constructor
  · by_contra before
    have nonzero : year ≠ 0 := by
      rintro rfl
      exact before least
    have first := (sound year (by omega)).2 (by simp; omega)
    have earlier := plainDays_mono (by omega : inEra ≤ yearStart year - 1)
    omega
  · by_cases last : year = 399
    · subst last
      unfold yearStart
      omega
    · by_contra behind
      have next := (sound (year + 1) (by omega)).1
      have starts : yearStart ((year : Int) + 1) ≤ yearStart year + 366 := by
        unfold yearStart
        omega
      have later := plainDays_mono (by omega : yearStart ((year : Int) + 1) ≤ inEra)
      push_cast at next
      omega

theorem toDays_ofDays (days : Int) : (ofDays days).toDays = days := by
  have least : 0 ≤ (days + 719468) % 146097 := Int.emod_nonneg _ (by decide)
  have most : (days + 719468) % 146097 < 146097 := Int.emod_lt_of_pos _ (by decide)
  obtain ⟨first, last⟩ := yearStart_bounds least most
  have years : 0 ≤ plainDays ((days + 719468) % 146097) / 365 ∧
      plainDays ((days + 719468) % 146097) / 365 < 400 := by
    unfold plainDays
    omega
  calc
    (ofDays days).toDays
    _ = (ofMarch ((days + 719468) / 146097) (plainDays ((days + 719468) % 146097) / 365)
          ((days + 719468) % 146097 -
            yearStart (plainDays ((days + 719468) % 146097) / 365))).toDays := rfl
    _ = days := by
      rw [toDays_ofMarch years ⟨by omega, by omega⟩]
      simp only [yearStart]
      omega

theorem isValid_bounds {day : Day} (valid : day.isValid = true) :
    day.month < 100 ∧ day.day < 100 := by
  simp only [isValid, Bool.and_eq_true, decide_eq_true_eq] at valid
  have short : daysInMonth day.year day.month ≤ 31 := by
    unfold daysInMonth
    split <;> try split
    all_goals decide
  omega

end Day

namespace Instant

section Numbers

theorem toList_padded (width number : Nat) :
    (padded width number).toList =
      List.replicate (width - (Nat.toDigits 10 number).length) '0' ++ Nat.toDigits 10 number := by
  simp [padded]

theorem isDigit_of_mem_padded {width number : Nat} {c : Char}
    (member : c ∈ (padded width number).toList) : c.isDigit = true := by
  rw [toList_padded] at member
  rcases List.mem_append.mp member with zero | digit
  · obtain ⟨_, rfl⟩ := List.mem_replicate.mp zero
    rfl
  · exact Nat.isDigit_of_mem_toDigits (by decide) (by decide) digit

theorem ofDigitChars_padded (width number : Nat) :
    Nat.ofDigitChars 10 (padded width number).toList 0 = number := by
  rw [toList_padded, Nat.ofDigitChars_append, Nat.ofDigitChars_replicate_zero, Nat.mul_zero]
  exact Nat.ofDigitChars_ten_toDigits

theorem padded_ne_nil (width number : Nat) : (padded width number).toList ≠ [] := by
  rw [toList_padded]
  simp

theorem length_padded {width number : Nat} (wide : 0 < width) (small : number < 10 ^ width) :
    (padded width number).toList.length = width := by
  have most := Nat.toDigits_length 10 number width wide small
  rw [toList_padded, List.length_append, List.length_replicate]
  omega

theorem not_blank_of_isDigit {c : Char} (digit : c.isDigit = true) : Text.isBlank c = false := by
  obtain ⟨least, most⟩ := Char.isDigit_iff_toNat.mp digit
  have small : ∀ number, number < 58 → 48 ≤ number →
      Text.Ranges.contains Text.blankRanges number = false := by
    decide
  exact small c.toNat (Nat.lt_succ_of_le most) least

variable {digits rest : List Char} (all : ∀ c ∈ digits, c.isDigit = true) (nonempty : digits ≠ [])

include all

theorem takeWhile_digits (ends : ∀ c ∈ rest.head?, c.isDigit = false) :
    (digits ++ rest).takeWhile Char.isDigit = digits := by
  rw [List.takeWhile_append_of_pos all]
  cases rest with
  | nil => simp
  | cons c rest => simp [ends c rfl]

include nonempty

theorem skipBlanks_digits : skipBlanks (digits ++ rest) = digits ++ rest := by
  cases digits with
  | nil => exact absurd rfl nonempty
  | cons c others =>
      have digit := not_blank_of_isDigit (all c List.mem_cons_self)
      rw [skipBlanks, List.cons_append, List.dropWhile_cons, digit]
      rfl

theorem readNumber?_digits {most : Nat} (few : digits.length ≤ most)
    (ends : digits.length = most ∨ ∀ c ∈ rest.head?, c.isDigit = false) :
    readNumber? most (digits ++ rest) = some (Nat.ofDigitChars 10 digits 0, rest) := by
  have taken : ((digits ++ rest).take most).takeWhile Char.isDigit = digits := by
    rw [List.take_append, List.take_of_length_le few]
    apply takeWhile_digits all
    intro c first
    rcases ends with full | ends
    · simp [full] at first
    · rw [List.head?_take] at first
      split at first
      · contradiction
      · exact ends c first
  simp [readNumber?, skipBlanks_digits all nonempty, taken, nonempty]

end Numbers

theorem readNumber?_padded {width number : Nat} (wide : 0 < width) (small : number < 10 ^ width)
    (rest : List Char) :
    readNumber? width ((padded width number).toList ++ rest) = some (number, rest) := by
  have long := length_padded wide small
  rw [readNumber?_digits (fun _ => isDigit_of_mem_padded) (padded_ne_nil _ _) long.le (.inl long),
    ofDigitChars_padded]

theorem readYear?_yearText (year : Int) {rest : List Char}
    (ends : ∀ c ∈ rest.head?, c.isDigit = false) :
    readYear? ((yearText year).toList ++ rest) = some (year, rest) := by
  obtain ⟨first, others, digits⟩ := List.exists_cons_of_ne_nil (padded_ne_nil 4 year.natAbs)
  have digit : first.isDigit = true :=
    isDigit_of_mem_padded (by rw [digits]; exact List.mem_cons_self)
  have number (most : Nat) (few : (padded 4 year.natAbs).toList.length ≤ most) :
      readNumber? most ((padded 4 year.natAbs).toList ++ rest) = some (year.natAbs, rest) := by
    rw [readNumber?_digits (fun _ => isDigit_of_mem_padded) (padded_ne_nil _ _) few (.inr ends),
      ofDigitChars_padded]
  unfold yearText
  split
  · rename_i short
    have same : year.toNat = year.natAbs := by omega
    have long : (padded 4 year.natAbs).toList.length = 4 := length_padded (by decide) (by omega)
    rw [same, readYear?, skipBlanks_digits (fun _ => isDigit_of_mem_padded) (padded_ne_nil _ _)]
    split
    · rename_i minus
      simp only [digits, List.cons_append, List.cons.injEq] at minus
      rw [minus.1] at digit
      contradiction
    · rename_i plus
      simp only [digits, List.cons_append, List.cons.injEq] at plus
      rw [plus.1] at digit
      contradiction
    · rw [number 4 long.le]
      simp
      omega
  · have signed := number _ (by simp : _ ≤ ((padded 4 year.natAbs).toList ++ rest).length)
    rw [digits, List.cons_append] at signed
    rw [String.toList_append, List.append_assoc, digits, List.cons_append]
    split
    · calc
        readYear? ('-' :: first :: (others ++ rest))
        _ = (if first.isDigit then readNumber? (first :: (others ++ rest)).length
              (first :: (others ++ rest)) else none).map fun read =>
                (-(read.1 : Int), read.2) := rfl
        _ = some (-(year.natAbs : Int), rest) := by rw [if_pos digit, signed, Option.map_some]
        _ = some (year, rest) := by rw [show -(year.natAbs : Int) = year by omega]
    · calc
        readYear? ('+' :: first :: (others ++ rest))
        _ = (if first.isDigit then readNumber? (first :: (others ++ rest)).length
              (first :: (others ++ rest)) else none).map fun read =>
                ((read.1 : Int), read.2) := rfl
        _ = some ((year.natAbs : Int), rest) := by rw [if_pos digit, signed, Option.map_some]
        _ = some (year, rest) := by rw [show (year.natAbs : Int) = year by omega]

theorem readFraction?_fractionText {nanos : Nat} (small : nanos < nanosPerSecond)
    (rest : List Char) :
    readFraction? ((fractionText nanos).toList ++ 'Z' :: rest) = some (nanos, 'Z' :: rest) := by
  have read (width number : Nat) (wide : 0 < width) (few : width ≤ 9)
      (small : number < 10 ^ width) :
      readFraction? (("." ++ padded width number).toList ++ 'Z' :: rest) =
        some (number * 10 ^ (9 - width), 'Z' :: rest) := by
    have long := length_padded wide small
    have digits : ((padded width number).toList ++ 'Z' :: rest).takeWhile Char.isDigit =
        (padded width number).toList :=
      takeWhile_digits (fun _ => isDigit_of_mem_padded) (by simp)
    have kept : (padded width number).toList.take 9 = (padded width number).toList :=
      List.take_of_length_le (by omega)
    rw [String.toList_append, List.append_assoc]
    show readFraction? ('.' :: ((padded width number).toList ++ 'Z' :: rest)) = _
    have nonempty := List.isEmpty_eq_false_iff.mpr (padded_ne_nil width number)
    simp only [readFraction?, digits, kept, nonempty, ofDigitChars_padded, long,
      Bool.false_eq_true, if_false, Nat.pow_eq]
    rw [List.drop_left' long]
  simp only [nanosPerSecond] at small
  unfold fractionText
  split
  · rename_i zero
    rw [zero]
    rfl
  · split
    · rw [read 3 _ (by decide) (by decide) (by omega)]
      simp
      omega
    · split
      · rw [read 6 _ (by decide) (by decide) (by omega)]
        simp
        omega
      · rw [read 9 _ (by decide) (by decide) (by omega)]
        simp

/-- The calendar has the day, and a leap second ends a minute. -/
def InCalendar (t : Instant) : Prop :=
  (Day.ofDays (t.seconds / 86400)).isValid ∧
    (t.nanos < nanosPerSecond ∨ t.nanos < 2 * nanosPerSecond ∧ t.seconds % 60 = 59)

/-- Reads the parts of a text with one digit group for each number. -/
theorem ofText?_text {t : Instant} (dated : t.InCalendar) : ofText? t.text = some t := by
  obtain ⟨valid, fraction⟩ := dated
  have number (number : Nat) (small : number < 100) (rest : List Char) :
      readNumber? 2 ((padded 2 number).toList ++ rest) = some (number, rest) :=
    readNumber?_padded (by decide) small rest
  have date := Day.isValid_bounds valid
  have second : (t.seconds % 86400).toNat % 60 + t.nanos / nanosPerSecond ≤ 60 := by
    simp only [nanosPerSecond] at fraction ⊢
    omega
  have small : t.nanos % nanosPerSecond < nanosPerSecond := Nat.mod_lt _ (by decide)
  have list : t.text.toList = (yearText (Day.ofDays (t.seconds / 86400)).year).toList ++
      '-' :: ((padded 2 (Day.ofDays (t.seconds / 86400)).month).toList ++
      '-' :: ((padded 2 (Day.ofDays (t.seconds / 86400)).day).toList ++
      'T' :: ((padded 2 ((t.seconds % 86400).toNat / 3600)).toList ++
      ':' :: ((padded 2 ((t.seconds % 86400).toNat / 60 % 60)).toList ++
      ':' :: ((padded 2 ((t.seconds % 86400).toNat % 60 + t.nanos / nanosPerSecond)).toList ++
      ((fractionText (t.nanos % nanosPerSecond)).toList ++ ['Z'])))))) := by
    simp [text]
  have mark (c : Char) (plain : Text.isBlank c = false) (rest : List Char) :
      readMark? c (c :: rest) = some rest := by
    simp [readMark?, skipBlanks, plain]
  have offset : readOffset? ['Z'] = some (0, []) := rfl
  unfold ofText?
  rw [list]
  refine Option.bind_eq_some_iff.mpr ⟨_, readYear?_yearText _ (by simp), ?_⟩
  refine Option.bind_eq_some_iff.mpr ⟨_, mark '-' rfl _, ?_⟩
  refine Option.bind_eq_some_iff.mpr ⟨_, number _ date.1 _, ?_⟩
  refine Option.bind_eq_some_iff.mpr ⟨_, mark '-' rfl _, ?_⟩
  refine Option.bind_eq_some_iff.mpr ⟨_, number _ date.2 _, ?_⟩
  refine Option.bind_eq_some_iff.mpr ⟨_, rfl, ?_⟩
  refine Option.bind_eq_some_iff.mpr ⟨_, number _ (by omega) _, ?_⟩
  refine Option.bind_eq_some_iff.mpr ⟨_, mark ':' rfl _, ?_⟩
  refine Option.bind_eq_some_iff.mpr ⟨_, number _ (by omega) _, ?_⟩
  refine Option.bind_eq_some_iff.mpr ⟨_, mark ':' rfl _, ?_⟩
  refine Option.bind_eq_some_iff.mpr ⟨_, number _ (by omega) _, ?_⟩
  refine Option.bind_eq_some_iff.mpr ⟨_, readFraction?_fractionText small _, ?_⟩
  refine Option.bind_eq_some_iff.mpr ⟨_, offset, ?_⟩
  have leap : t.nanos / nanosPerSecond = 0 ∧ t.nanos % nanosPerSecond = t.nanos ∨
      t.nanos / nanosPerSecond = 1 ∧ t.nanos % nanosPerSecond + nanosPerSecond = t.nanos ∧
        (t.seconds % 86400).toNat % 60 = 59 := by
    simp only [nanosPerSecond] at fraction ⊢
    omega
  have nanos : (if (t.seconds % 86400).toNat % 60 + t.nanos / nanosPerSecond = 60 then
      t.nanos % nanosPerSecond + nanosPerSecond else t.nanos % nanosPerSecond) = t.nanos := by
    obtain ⟨none, same⟩ | ⟨one, same, last⟩ := leap
    · rw [if_neg (by omega), same]
    · rw [if_pos (by omega), same]
  have clock : ((t.seconds % 86400).toNat / 3600 : Nat) * 3600 +
      ((t.seconds % 86400).toNat / 60 % 60 : Nat) * 60 +
        ((if (t.seconds % 86400).toNat % 60 + t.nanos / nanosPerSecond = 60 then 59
          else (t.seconds % 86400).toNat % 60 + t.nanos / nanosPerSecond : Nat) : Int) =
      t.seconds % 86400 := by
    obtain ⟨none, _⟩ | ⟨one, _, last⟩ := leap
    · rw [if_neg (by omega)]
      omega
    · rw [if_pos (by omega)]
      omega
  have whole : t.seconds / 86400 * 86400 + t.seconds % 86400 - 0 = t.seconds := by omega
  show (if _ ∧ _ then _ else none) = _
  simp only [clock, nanos]
  rw [Day.toDays_ofDays, whole]
  exact if_pos ⟨rfl, valid, by omega, by omega, second, by decide, valid⟩

theorem ofDigitChars_lt {digits : List Char} (all : ∀ c ∈ digits, c.isDigit = true)
    (start : Nat) :
    Nat.ofDigitChars 10 digits start < (start + 1) * 10 ^ digits.length := by
  induction digits generalizing start with
  | nil => simp
  | cons c rest ih =>
      obtain ⟨digit, others⟩ := List.forall_mem_cons.mp all
      have most : c.toNat - '0'.toNat ≤ 9 := by
        have bound : c.toNat ≤ 57 := (Char.isDigit_iff_toNat.mp digit).2
        have zero : '0'.toNat = 48 := rfl
        omega
      rw [Nat.ofDigitChars_cons]
      calc
        Nat.ofDigitChars 10 rest (10 * start + (c.toNat - '0'.toNat))
        _ < (10 * start + (c.toNat - '0'.toNat) + 1) * 10 ^ rest.length := ih others _
        _ ≤ (start + 1) * 10 * 10 ^ rest.length := Nat.mul_le_mul_right _ (by omega)
        _ = (start + 1) * 10 ^ (c :: rest).length := by
          rw [Nat.mul_assoc, List.length_cons, Nat.pow_succ, Nat.mul_comm 10]

theorem readFraction?_lt {cs rest : List Char} {nanos : Nat}
    (read : readFraction? cs = some (nanos, rest)) : nanos < nanosPerSecond := by
  unfold readFraction? at read
  split at read
  · rename_i digits
    dsimp only at read
    split at read
    · contradiction
    · obtain ⟨rfl, _⟩ := Prod.mk.inj (Option.some.inj read)
      have few : ((digits.takeWhile Char.isDigit).take 9).length ≤ 9 := by simp
      have decimal : ∀ c ∈ (digits.takeWhile Char.isDigit).take 9, c.isDigit = true := by
        intro c member
        exact List.all_eq_true.mp List.all_takeWhile c (List.mem_of_mem_take member)
      have below := ofDigitChars_lt decimal 0
      generalize (digits.takeWhile Char.isDigit).take 9 = kept at *
      calc
        Nat.ofDigitChars 10 kept 0 * 10 ^ (9 - kept.length)
        _ < (0 + 1) * 10 ^ kept.length * 10 ^ (9 - kept.length) :=
          Nat.mul_lt_mul_of_pos_right below (Nat.pow_pos (by decide))
        _ = nanosPerSecond := by
          rw [Nat.one_mul, ← Nat.pow_add, Nat.add_sub_cancel' few]
          rfl
  · obtain ⟨rfl, _⟩ := Prod.mk.inj (Option.some.inj read)
    decide

theorem readHoursAndMinutes?_minutes {cs rest : List Char} {seconds : Int}
    (read : readHoursAndMinutes? cs = some (seconds, rest)) : seconds % 60 = 0 := by
  obtain ⟨⟨hours, _⟩, _, read⟩ := Option.bind_eq_some_iff.mp read
  obtain ⟨⟨minutes, _⟩, _, read⟩ := Option.bind_eq_some_iff.mp read
  dsimp only at read
  split at read
  · cases read
    omega
  · contradiction

/-- An offset is a number of minutes. -/
theorem readOffset?_minutes {cs rest : List Char} {offset : Int}
    (read : readOffset? cs = some (offset, rest)) : offset % 60 = 0 := by
  have back {cs : List Char} (read : ((readHoursAndMinutes? cs).map fun found =>
      (-found.1, found.2)) = some (offset, rest)) : offset % 60 = 0 := by
    obtain ⟨⟨seconds, _⟩, found, same⟩ := Option.map_eq_some_iff.mp read
    have whole := readHoursAndMinutes?_minutes found
    cases same
    omega
  unfold readOffset? at read
  split at read
  · cases read
    rfl
  · cases read
    rfl
  · exact readHoursAndMinutes?_minutes read
  · exact back read
  · exact back read
  · split at read
    · cases read
      rfl
    · contradiction
  · contradiction

theorem inCalendar_of_ofText? {text : String} {t : Instant} (read : ofText? text = some t) :
    t.InCalendar := by
  unfold ofText? at read
  obtain ⟨⟨year, _⟩, _, read⟩ := Option.bind_eq_some_iff.mp read
  obtain ⟨_, _, read⟩ := Option.bind_eq_some_iff.mp read
  obtain ⟨⟨month, _⟩, _, read⟩ := Option.bind_eq_some_iff.mp read
  obtain ⟨_, _, read⟩ := Option.bind_eq_some_iff.mp read
  obtain ⟨⟨day, _⟩, _, read⟩ := Option.bind_eq_some_iff.mp read
  obtain ⟨_, _, read⟩ := Option.bind_eq_some_iff.mp read
  obtain ⟨⟨hour, _⟩, _, read⟩ := Option.bind_eq_some_iff.mp read
  obtain ⟨_, _, read⟩ := Option.bind_eq_some_iff.mp read
  obtain ⟨⟨minute, _⟩, _, read⟩ := Option.bind_eq_some_iff.mp read
  obtain ⟨_, _, read⟩ := Option.bind_eq_some_iff.mp read
  obtain ⟨⟨second, _⟩, _, read⟩ := Option.bind_eq_some_iff.mp read
  obtain ⟨⟨nanos, _⟩, fraction, read⟩ := Option.bind_eq_some_iff.mp read
  obtain ⟨⟨offset, _⟩, minutes, read⟩ := Option.bind_eq_some_iff.mp read
  obtain ⟨accepted, same⟩ := Option.ite_none_right_eq_some.mp read
  obtain ⟨_, _, _, _, _, _, valid⟩ := accepted
  have small := readFraction?_lt fraction
  have whole := readOffset?_minutes minutes
  obtain rfl := Option.some.inj same
  refine ⟨valid, ?_⟩
  by_cases leap : second = 60
  · simp only [if_pos leap]
    omega
  · simp only [if_neg leap]
    exact .inl small

end Instant

end Workflow
