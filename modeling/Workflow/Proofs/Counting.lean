import Mathlib.Logic.Function.Iterate
import Workflow.Delegate.Builtin
import Workflow.Proofs.Rounding

/-! Counting in doubles.

The counter reads two integers, adds them as doubles and makes an integer of what comes out.  So
each of them is rounded to 53 digits, and their sum once more: `Delegate.advance` is the integer
that is left, and `Delegate.counter_rounds` says that this is what the counter makes of its field.
Up to `2 ^ 53` nothing is lost.  Counting by one ends there.
-/

open Float.Model (UnpackedFloat Format totalExponent)
open Float.Model.UnpackedFloat

namespace Workflow

namespace Double

theorem apply_shift (sign : Sign) (mantissa shift place : Nat) :
    sign.apply (mantissa <<< shift : Nat) * 2 ^ place =
      sign.apply (mantissa * 2 ^ (shift + place) : Nat) := by
  rw [Nat.shiftLeft_eq, Nat.pow_add, ← Nat.mul_assoc]
  cases sign <;> simp [Sign.apply]

/-- Sums of integers are rounded. -/
theorem add_stands {first second : Int} {left right : UnpackedFloat}
    (leftStands : Stands first left) (rightStands : Stands second right) :
    Stands (nearest (first + second)) (UnpackedFloat.add .binary64 left right) := by
  cases left with
  | infinity | notANumber => contradiction
  | zero sign =>
      obtain rfl : first = 0 := leftStands
      rw [Int.zero_add, nearest_of_stands rightStands]
      cases right with
      | infinity | notANumber => contradiction
      | zero other => cases sign <;> cases other <;> exact rightStands
      | finite => exact rightStands
  | finite sign mantissa exponent positive =>
      cases right with
      | infinity | notANumber => contradiction
      | zero =>
          obtain rfl : second = 0 := rightStands
          rw [Int.add_zero, nearest_of_stands leftStands]
          exact leftStands
      | finite other added place nonzero =>
          obtain ⟨_, least, same⟩ := leftStands
          obtain ⟨_, bottom, alike⟩ := rightStands
          show Stands _ (UnpackedFloat.normalize .binary64
            (sign.apply (mantissa <<< (exponent - min exponent place).toNat : Nat) +
              other.apply (added <<< (place - min exponent place).toNat : Nat))
            (min exponent place) .positive)
          refine normalize_stands (by omega) ?_
          have first : (exponent - min exponent place).toNat + (min exponent place + 52).toNat =
              (exponent + 52).toNat := by omega
          have second : (place - min exponent place).toNat + (min exponent place + 52).toNat =
              (place + 52).toNat := by omega
          rw [Int.add_mul, apply_shift, apply_shift, first, second, ← same, ← alike, Int.add_mul]

theorem add_float_stands {first second : Int} {left right : Float}
    (leftStands : Stands first left.toModel.unpack)
    (rightStands : Stands second right.toModel.unpack)
    (small : (first + second).natAbs ≤ 2 ^ 64) :
    Stands (nearest (first + second)) (left + right).toModel.unpack := by
  have sum := add_stands leftStands rightStands
  show Stands _ (Float.Model.pack
    (UnpackedFloat.add .binary64 left.toModel.unpack right.toModel.unpack)).unpack
  rwa [unpack_pack sum (natAbs_nearest_le small)]

/-- What is stored of a double with 53 digits. -/
theorem stored_of_unpack {bits : BitVec Format.binary64.numBits} {sign : Sign} {mantissa : Nat}
    {exponent : Int} {positive : 0 < mantissa}
    (unpacked : unpack .binary64 bits = .finite sign mantissa exponent positive)
    (normal : 2 ^ 52 ≤ mantissa) :
    Sign.ofBitVec (unpackSign bits) = sign ∧ 2 ^ 52 + (unpackMantissa bits).toNat = mantissa ∧
      ((unpackExponent bits).toNat : Int) - 1075 = exponent ∧
      (unpackExponent bits).toNat ≠ 0 := by
  have finite : unpackExponent bits ≠ -1#11 :=
    unpackExponent_ne_of_isFinite (by rw [unpacked]; rfl)
  have stored : unpackExponent bits ≠ 0#11 := by
    intro zero
    have short : (unpackMantissa bits).toNat < 2 ^ 52 := BitVec.isLt _
    by_cases empty : unpackMantissa bits = 0#52
    · rw [unpack_zero zero empty] at unpacked
      cases unpacked
    · rw [unpack_subnormal zero empty, UnpackedFloat.finite.injEq] at unpacked
      omega
  rw [unpack_normal finite stored, UnpackedFloat.finite.injEq] at unpacked
  obtain ⟨signs, digits, place⟩ := unpacked
  exact ⟨signs, digits, place, fun zero => stored (BitVec.eq_of_toNat_eq zero)⟩

theorem toNat_unpackMantissa (number : Float) :
    (@unpackMantissa .binary64 number.toModel.toBits.toBitVec).toNat =
      number.toBits.toNat % 1 <<< 52 :=
  rfl

theorem toNat_unpackExponent (number : Float) :
    (@unpackExponent .binary64 number.toModel.toBits.toBitVec).toNat =
      (number.toBits.toNat >>> 52) % 1 <<< 11 :=
  rfl

theorem unpackSign_eq_zero_iff (number : Float) :
    @unpackSign .binary64 number.toModel.toBits.toBitVec = 0#1 ↔
      number.toBits.toNat < 1 <<< 63 := by
  have most : number.toBits.toNat < 2 ^ 64 := number.toBits.toNat_lt
  have first : (@unpackSign .binary64 number.toModel.toBits.toBitVec).toNat =
      (number.toBits.toNat >>> 63) % 2 := rfl
  rw [← BitVec.toNat_inj, first, Nat.shiftRight_eq_div_pow, Nat.one_shiftLeft]
  show _ = 0 ↔ _
  omega

theorem magnitude_of_unpack {number : Float} {sign : Sign} {mantissa : Nat} {exponent : Int}
    {positive : 0 < mantissa}
    (unpacked : number.toModel.unpack = .finite sign mantissa exponent positive)
    (normal : 2 ^ 52 ≤ mantissa) :
    (magnitude number).mantissa = mantissa ∧ (magnitude number).exponent = exponent ∧
      (isNegative number ↔ sign = .negative) := by
  obtain ⟨signs, digits, place, stored⟩ := stored_of_unpack unpacked normal
  rw [toNat_unpackMantissa] at digits
  rw [toNat_unpackExponent] at place stored
  refine ⟨?_, ?_, ?_⟩
  · rw [magnitude, if_neg stored]
    exact digits
  · rw [magnitude, if_neg stored]
    exact place
  · rw [← signs, isNegative, decide_eq_true_iff, Sign.ofBitVec]
    split
    next low => exact iff_of_false (Nat.not_le.mpr ((unpackSign_eq_zero_iff _).mp low)) nofun
    next high => exact iff_of_true (Nat.not_lt.mp (mt (unpackSign_eq_zero_iff _).mpr high)) rfl

theorem magnitude_of_zero {number : Float} {sign : Sign}
    (unpacked : number.toModel.unpack = .zero sign) : magnitude number = ⟨0, -1074, false⟩ := by
  have finite : @unpackExponent .binary64 number.toModel.toBits.toBitVec ≠ -1#11 :=
    unpackExponent_ne_of_isFinite (congrArg UnpackedFloat.isFinite unpacked)
  delta Float.Model.unpack at unpacked
  by_cases low : @unpackExponent .binary64 number.toModel.toBits.toBitVec = 0#11
  · by_cases empty : @unpackMantissa .binary64 number.toModel.toBits.toBitVec = 0#52
    · rw [magnitude, ← toNat_unpackMantissa, ← toNat_unpackExponent, empty, low]
      rfl
    · rw [unpack_subnormal low empty] at unpacked
      cases unpacked
  · rw [unpack_normal finite low] at unpacked
    cases unpacked

theorem isFinite_of_stands {value : Int} {number : Float}
    (stands : Stands value number.toModel.unpack) : number.isFinite = true := by
  show number.toModel.unpack.isFinite = true
  cases unpacked : number.toModel.unpack with
  | zero | finite => rfl
  | infinity | notANumber =>
      rw [unpacked] at stands
      contradiction

/-- The integer that a double stands for can be read off it. -/
theorem whole?_of_stands {value : Int} {number : Float}
    (stands : Stands value number.toModel.unpack) : whole? number = some value := by
  have finite := isFinite_of_stands stands
  cases unpacked : number.toModel.unpack with
  | infinity | notANumber =>
      rw [unpacked] at stands
      contradiction
  | zero sign =>
      rw [unpacked] at stands
      obtain rfl : value = 0 := stands
      rw [whole?, magnitude_of_zero unpacked, finite]
      simp
  | finite sign mantissa exponent positive =>
      rw [unpacked] at stands
      obtain ⟨size, rfl, same⟩ := stands.finite
      obtain ⟨⟨low, _⟩, least, _⟩ := stands
      obtain ⟨digits, place, negative⟩ := magnitude_of_unpack unpacked low
      have scaled : mantissa * 2 ^ exponent.toNat = size * 2 ^ (-exponent).toNat := by
        have powers : exponent.toNat + 52 = (exponent + 52).toNat + (-exponent).toNat := by omega
        refine Nat.eq_of_mul_eq_mul_right (Nat.two_pow_pos 52) ?_
        rw [Nat.mul_assoc, ← Nat.pow_add, powers, Nat.pow_add, ← Nat.mul_assoc, same,
          Nat.mul_right_comm]
      have divides : mantissa % 2 ^ (-exponent).toNat = 0 := by
        by_cases whole : 0 ≤ exponent
        · rw [Int.toNat_of_nonpos (Int.neg_nonpos_of_nonneg whole), Nat.pow_zero, Nat.mod_one]
        · rw [Int.toNat_of_nonpos (by omega), Nat.pow_zero, Nat.mul_one] at scaled
          rw [scaled, Nat.mul_mod_left]
      have unit := Nat.two_pow_pos (-exponent).toNat
      rw [whole?]
      simp only [digits, place, finite, Nat.shiftLeft_eq, Nat.one_mul, divides, scaled,
        Nat.mul_div_cancel _ unit, and_self, if_true]
      cases sign with
      | negative => rw [if_pos (negative.mpr rfl), Sign.apply]
      | positive => rw [if_neg (mt negative.mp Sign.noConfusion), Sign.apply]

end Double

namespace Delegate

open Double (Stands nearest)

/-- Integers of 64 bits, one of which is for the sign. -/
def IsLong (number : Int) : Prop :=
  -2 ^ 63 ≤ number ∧ number < 2 ^ 63

/-- The field in which a node counts. -/
def countField (node : Node) : String :=
  (node.configText? "field").getD "count"

/-- The integer by which a node counts, if it is one. -/
def step? (node : Node) : Option Int :=
  match Fields.get? node.config "by" with
  | none => some 1
  | some (.number (.int step)) => some step
  | some _ => none

/-- The integer that a node finds in its field, if it is one. -/
def count? (node : Node) (fields : Fields Json) : Option Int :=
  match Fields.get? fields (countField node) with
  | none | some .null => some 0
  | some (.number (.int count)) => some count
  | some _ => none

/-- What counting makes of an integer.  It and the step are rounded, and their sum again. -/
def advance (step count : Int) : Int :=
  nearest (nearest count + nearest step)

/-- An integer as the value of a field: itself if it has at most 63 digits, and otherwise the
double that stands for it. -/
def ShownAs (number : Int) (value : Json) : Prop :=
  if number.natAbs < 2 ^ 63 then value = .int number
  else ∃ double : Float, Stands number double.toModel.unpack ∧ value = .number (.float double)

/-- What several calls in a row make of a payload. -/
def counterTimes (node : Node) (input : Json) : Nat → Except DelegateError Json
  | 0 => .ok input
  | times + 1 => counterTimes node input times >>= counter node

theorem IsLong.of_small {number : Int} (small : number.natAbs < 2 ^ 63) : IsLong number := by
  unfold IsLong
  omega

theorem IsLong.stands {number : Int} (long : IsLong number) :
    Stands (nearest number) (Float.ofInt number).toModel.unpack :=
  Double.ofInt_stands (by have := long.1; omega) (by have := long.2; omega)

theorem natAbs_nearest_of_isLong {number : Int} (long : IsLong number) :
    (nearest number).natAbs ≤ 2 ^ 63 := by
  obtain ⟨least, most⟩ := long
  have low : nearest (-2 ^ 63) ≤ nearest number := Double.nearest_mono least
  have high : nearest number ≤ nearest (2 ^ 63) := Double.nearest_mono (Int.le_of_lt most)
  have bottom : nearest (-2 ^ 63) = -2 ^ 63 := by decide
  have top : nearest (2 ^ 63) = 2 ^ 63 := by decide
  omega

theorem countOf_shown {number : Int} {sum : Float} (stands : Stands number sum.toModel.unpack) :
    ShownAs number (countOf sum) := by
  have limit : countLimit = (2 ^ 63 : Nat) := rfl
  rw [countOf, Double.whole?_of_stands stands, ShownAs, limit]
  dsimp only
  by_cases small : number.natAbs < 2 ^ 63
  · rw [if_pos small, if_pos (Int.ofNat_lt.mpr small)]
  · rw [if_neg small, if_neg (mt Int.ofNat_lt.mp small)]
    refine ⟨sum, stands, ?_⟩
    rw [Json.ofFloat, if_pos (Double.isFinite_of_stands stands)]

section Counter

variable {node : Node} {fields : Fields Json} {count step : Int}

/-- A step is read as the double nearest to it. -/
theorem step_reading (steps : step? node = some step) :
    ∃ added : Float, (IsLong step → Stands (nearest step) added.toModel.unpack) ∧
      (Fields.get? node.config "by" = none ∧ added = 1.0 ∨
        ∃ number : Number, Fields.get? node.config "by" = some (.number number) ∧
          number.toFloat = added) := by
  unfold step? at steps
  split at steps
  next absent =>
    obtain rfl : 1 = step := Option.some.inj steps
    exact ⟨1.0, fun _ => Double.stands_one, .inl ⟨absent, rfl⟩⟩
  next given =>
    obtain rfl := Option.some.inj steps
    exact ⟨_, IsLong.stands, .inr ⟨_, given, rfl⟩⟩
  next => cases steps

/-- So is the integer in the field. -/
theorem count_reading (counts : count? node fields = some count) :
    ∃ current : Float, (IsLong count → Stands (nearest count) current.toModel.unpack) ∧
      ((Fields.get? fields (countField node) = none ∨
          Fields.get? fields (countField node) = some .null) ∧ current = 0.0 ∨
        ∃ number : Number, Fields.get? fields (countField node) = some (.number number) ∧
          number.toFloat = current) := by
  have zero : Stands 0 (0.0 : Float).toModel.unpack := rfl
  unfold count? at counts
  split at counts
  next missing =>
    obtain rfl : 0 = count := Option.some.inj counts
    exact ⟨0.0, fun _ => zero, .inl ⟨.inl missing, rfl⟩⟩
  next null =>
    obtain rfl : 0 = count := Option.some.inj counts
    exact ⟨0.0, fun _ => zero, .inl ⟨.inr null, rfl⟩⟩
  next found =>
    obtain rfl := Option.some.inj counts
    exact ⟨_, IsLong.stands, .inr ⟨_, found, rfl⟩⟩
  next => cases counts

/-- One call puts the rounded sum into the field. -/
theorem counter_shows (counts : count? node fields = some count) (steps : step? node = some step)
    (long : IsLong count) (short : IsLong step) :
    ∃ value, ShownAs (advance step count) value ∧
      counter node (.object fields) =
        .ok (.object (Fields.insert (countField node) value fields)) := by
  obtain ⟨current, standing, found⟩ := count_reading counts
  obtain ⟨added, alike, given⟩ := step_reading steps
  have sum : Stands (advance step count) (current + added).toModel.unpack := by
    have first := natAbs_nearest_of_isLong long
    have second := natAbs_nearest_of_isLong short
    exact Double.add_float_stands (standing long) (alike short) (by omega)
  refine ⟨countOf (current + added), countOf_shown sum, ?_⟩
  unfold countField at *
  rcases given with ⟨absent, rfl⟩ | ⟨number, given, rfl⟩ <;>
    rcases found with ⟨missing | null, rfl⟩ | ⟨number, found, rfl⟩ <;>
    simp [counter, wrap, *] <;> rfl

theorem counter_of_small (counts : count? node fields = some count)
    (steps : step? node = some step) (long : IsLong count) (short : IsLong step)
    (small : (advance step count).natAbs < 2 ^ 63) :
    counter node (.object fields) =
      .ok (.object (Fields.insert (countField node) (.int (advance step count)) fields)) := by
  obtain ⟨value, shown, done⟩ := counter_shows counts steps long short
  rw [ShownAs, if_pos small] at shown
  rw [done, shown]

theorem counterTimes_of_small (counts : count? node fields = some count)
    (steps : step? node = some step) (long : IsLong count) (short : IsLong step) (times : Nat)
    (small : ∀ earlier ≤ times, ((advance step)^[earlier + 1] count).natAbs < 2 ^ 63) :
    counterTimes node (.object fields) (times + 1) =
      .ok (.object (Fields.insert (countField node)
        (.int ((advance step)^[times + 1] count)) fields)) := by
  induction times with
  | zero => exact counter_of_small counts steps long short (small 0 le_rfl)
  | succ times ih =>
      have before := small times (Nat.le_succ times)
      have after := small (times + 1) le_rfl
      rw [Function.iterate_succ_apply'] at after ⊢
      rw [counterTimes, ih fun earlier most => small earlier (Nat.le_succ_of_le most)]
      have found : count? node (Fields.insert (countField node)
          (.int ((advance step)^[times + 1] count)) fields) =
            some ((advance step)^[times + 1] count) := by
        rw [count?, Fields.get?_insert_self]
        rfl
      have again := counter_of_small found steps (.of_small before) short after
      rwa [Fields.insert_insert_self] at again

end Counter

theorem advance_of_small {step count : Int} (few : count.natAbs ≤ 2 ^ 53)
    (little : step.natAbs ≤ 2 ^ 53) (small : (count + step).natAbs ≤ 2 ^ 53) :
    advance step count = count + step := by
  rw [advance, Double.nearest_of_natAbs_le few, Double.nearest_of_natAbs_le little,
    Double.nearest_of_natAbs_le small]

/-- From one small integer to another, those in between are small. -/
theorem natAbs_between {count step : Int} {bound times earlier : Nat} (few : count.natAbs ≤ bound)
    (small : (count + times * step).natAbs ≤ bound) (most : earlier ≤ times) :
    (count + earlier * step).natAbs ≤ bound := by
  have most : (earlier : Int) ≤ times := Int.ofNat_le.mpr most
  have least := Int.natCast_nonneg earlier
  rcases Int.le_total 0 step with up | down
  · have start := Int.mul_nonneg least up
    have stop := Int.mul_le_mul_of_nonneg_right most up
    omega
  · have start := Int.mul_nonpos_of_nonneg_of_nonpos least down
    have stop := Int.mul_le_mul_of_nonpos_right most down
    omega

theorem iterate_advance_of_small {step count : Int} (few : count.natAbs ≤ 2 ^ 53)
    (little : step.natAbs ≤ 2 ^ 53) {times : Nat}
    (small : (count + times * step).natAbs ≤ 2 ^ 53) :
    (advance step)^[times] count = count + times * step := by
  induction times with
  | zero => simp
  | succ times ih =>
      have before := natAbs_between few small (Nat.le_succ times)
      rw [Int.natCast_succ, Int.add_mul, Int.one_mul, ← Int.add_assoc] at small ⊢
      rw [Function.iterate_succ_apply', ih before, advance_of_small before little small]

theorem iterate_advance_one {count : Int} (few : count.natAbs ≤ 2 ^ 53) (times : Nat) :
    (advance 1)^[times] count = min (count + times) (2 ^ 53) := by
  induction times with
  | zero =>
      show count = min (count + (0 : Nat)) (2 ^ 53)
      omega
  | succ times ih =>
      rw [Function.iterate_succ_apply', ih]
      by_cases below : count + times < 2 ^ 53
      · rw [min_eq_left (Int.le_of_lt below),
          advance_of_small (by omega) (by decide) (by omega)]
        omega
      · rw [min_eq_right (by omega), min_eq_right (by omega)]
        decide

section Counter

variable {node : Node} {fields : Fields Json} {count step : Int}

/-- A counter whose field and step are integers of 64 bits gives the payload with the sum in its
field, as far as doubles tell it: both integers are rounded to 53 digits, and their sum again.
So the sum is right where that changes nothing and the sum has at most 63 digits.  Calls in a row
repeat the rounded step while there are at most 63 digits, and they count right while the
integers stay within `2 ^ 53`. -/
theorem counter_rounds (counts : count? node fields = some count)
    (steps : step? node = some step) (long : IsLong count) (short : IsLong step) :
    (∃ value, ShownAs (advance step count) value ∧
      counter node (.object fields) =
        .ok (.object (Fields.insert (countField node) value fields)) ∧
      (value = .int (count + step) ↔
        advance step count = count + step ∧ (count + step).natAbs < 2 ^ 63)) ∧
    (∀ times, (∀ earlier ≤ times, ((advance step)^[earlier + 1] count).natAbs < 2 ^ 63) →
      counterTimes node (.object fields) (times + 1) =
        .ok (.object (Fields.insert (countField node)
          (.int ((advance step)^[times + 1] count)) fields))) ∧
    (count.natAbs ≤ 2 ^ 53 → step.natAbs ≤ 2 ^ 53 → ∀ times : Nat,
      (count + (times + 1 : Nat) * step).natAbs ≤ 2 ^ 53 →
        counterTimes node (.object fields) (times + 1) =
          .ok (.object (Fields.insert (countField node)
            (.int (count + (times + 1 : Nat) * step)) fields))) := by
  have several := counterTimes_of_small counts steps long short
  refine ⟨?_, several, fun few little times small => ?_⟩
  · obtain ⟨value, shown, done⟩ := counter_shows counts steps long short
    refine ⟨value, shown, done, ?_⟩
    unfold ShownAs at shown
    split at shown
    next few =>
      obtain rfl := shown
      simp only [Json.int, Json.number.injEq, Number.int.injEq]
      constructor
      · intro same
        exact ⟨same, same ▸ few⟩
      · exact And.left
    next many =>
      obtain ⟨double, _, rfl⟩ := shown
      refine iff_of_false ?_ fun ⟨same, few⟩ => many (same ▸ few)
      rw [Json.int, Json.number.injEq]
      exact Number.noConfusion
  · have exact {earlier : Nat} (most : earlier ≤ times) :
        (advance step)^[earlier + 1] count = count + (earlier + 1 : Nat) * step :=
      iterate_advance_of_small few little (natAbs_between few small (Nat.succ_le_succ most))
    rw [several times ?_, exact le_rfl]
    intro earlier most
    rw [exact most]
    exact (natAbs_between few small (Nat.succ_le_succ most)).trans_lt (by decide)

/-- A node that counts by one. -/
def tally : Node :=
  { id := "t", templateId := "counter", kind := .data, title := "t",
    config := [("by", .int 1), ("field", .string "count")], position := .origin, inputs := [],
    outputs := [], status := .idle }

theorem counter_of_tally_rounds :
    (count? tally [("count", .int (2 ^ 53))] = some (2 ^ 53) ∧ step? tally = some 1 ∧
      IsLong (2 ^ 53) ∧ IsLong 1) ∧
    counterTimes tally (.object [("count", .int (2 ^ 53))]) 1 =
      .ok (.object [("count", .int (2 ^ 53))]) := by
  have long : IsLong (2 ^ 53) := .of_small (by decide)
  have short : IsLong 1 := .of_small (by decide)
  have counts : count? tally [("count", .int (2 ^ 53))] = some (2 ^ 53) := rfl
  have steps : step? tally = some 1 := rfl
  have stands : advance 1 (2 ^ 53) = 2 ^ 53 := by decide
  obtain ⟨_, several, _⟩ := counter_rounds counts steps long short
  refine ⟨⟨counts, steps, long, short⟩, ?_⟩
  rw [several 0, Function.iterate_one, stands]
  · rfl
  · intro earlier most
    obtain rfl := Nat.le_zero.mp most
    rw [Function.iterate_one, stands]
    decide

/-- One and `2 ^ 53` are counted together as `2 ^ 53`. -/
theorem tally_stands_still :
    counter tally (.object [("count", .int 9007199254740992)]) =
      .ok (.object [("count", .int 9007199254740992)]) := by
  have long : IsLong 9007199254740992 := .of_small (by decide)
  have short : IsLong 1 := .of_small (by decide)
  have stands : advance 1 9007199254740992 = 9007199254740992 := by decide
  have counted : counter tally (.object [("count", .int 9007199254740992)]) = .ok (.object _) :=
    counter_of_small rfl rfl long short (by rw [stands]; decide)
  rw [counted, stands]
  rfl

/-- Counting by one ends at `2 ^ 53`. -/
theorem counterTimes_one (counts : count? node fields = some count) (steps : step? node = some 1)
    (few : count.natAbs ≤ 2 ^ 53) (times : Nat) :
    counterTimes node (.object fields) (times + 1) =
      .ok (.object (Fields.insert (countField node)
        (.int (min (count + (times + 1 : Nat)) (2 ^ 53))) fields)) := by
  have long : IsLong count := .of_small (few.trans_lt (by decide))
  have short : IsLong 1 := .of_small (by decide)
  rw [counterTimes_of_small counts steps long short times, iterate_advance_one few]
  intro earlier _
  rw [iterate_advance_one few]
  omega

end Counter

end Delegate

end Workflow
