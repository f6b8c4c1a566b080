import Workflow.Expr.Token
import Workflow.Proofs.Spelling

/-! What reading a token looks at.

`Token.Reading` lists the ways in which a token is read.  None of them takes more characters than
there are (`Token.read_within`), and none looks behind a blank that follows the token: what comes
after the text in which a token ends may as well be nothing or begin with a blank
(`Token.read_replaced`).
-/

namespace Workflow

namespace Text

theorem Ranges.exists_of_contains {ranges : Ranges} {point : Nat}
    (contained : Ranges.contains ranges point) :
    ∃ range ∈ ranges, range.1 ≤ point ∧ point ≤ range.2 := by
  induction ranges with
  | nil => contradiction
  | cons range later ih =>
      rw [Ranges.contains] at contained
      split at contained
      · exact ⟨range, List.mem_cons_self, of_decide_eq_true contained, ‹_›⟩
      · obtain ⟨other, listed, bounds⟩ := ih contained
        exact ⟨other, List.mem_cons_of_mem _ listed, bounds⟩

theorem Ranges.not_contains_of_apart {ranges others : Ranges} {point : Nat}
    (apart : ∀ range ∈ ranges, ∀ other ∈ others, range.2 < other.1 ∨ other.2 < range.1)
    (contained : Ranges.contains ranges point) : Ranges.contains others point = false := by
  by_contra also
  obtain ⟨range, listed, bounds⟩ := Ranges.exists_of_contains contained
  obtain ⟨other, found, limits⟩ := Ranges.exists_of_contains (eq_true_of_ne_false also)
  have := apart range listed other found
  omega

variable {c : Char}

theorem isLetter_of_isBlank (blank : isBlank c) : isLetter c = false :=
  Ranges.not_contains_of_apart (by decide +kernel) blank

theorem isNumeral_of_isBlank (blank : isBlank c) : isNumeral c = false :=
  Ranges.not_contains_of_apart (by decide +kernel) blank

theorem isDigit_of_isBlank (blank : isBlank c) : c.isDigit = false := by
  by_contra digit
  rw [Instant.not_blank_of_isDigit (eq_true_of_ne_false digit)] at blank
  contradiction

theorem ne_of_isBlank {other : Char} (blank : isBlank c) (visible : isBlank other = false) :
    c ≠ other := by
  rintro rfl
  rw [visible] at blank
  contradiction

end Text

namespace Token

section Blanks

variable {c : Char}

theorem continuesNumber_of_isBlank (blank : Text.isBlank c) : continuesNumber c = false := by
  have point : Text.isBlank '.' = false := by decide
  simp [continuesNumber, Text.isDigit_of_isBlank blank, Text.ne_of_isBlank blank point]

theorem continuesName_of_isBlank (blank : Text.isBlank c) : continuesName c = false := by
  have underscore : Text.isBlank '_' = false := by decide
  have dollar : Text.isBlank '$' = false := by decide
  simp [continuesName, Text.isLetter_of_isBlank blank, Text.isNumeral_of_isBlank blank,
    Text.ne_of_isBlank blank underscore, Text.ne_of_isBlank blank dollar]

theorem visible_of_mem_sign {symbol : String} (listed : symbol ∈ signs)
    (inside : c ∈ symbol.toList) : ¬ Text.isBlank c := by
  have visible : signs.all fun symbol => symbol.toList.all fun c => !Text.isBlank c := by decide
  simpa using List.all_eq_true.mp (List.all_eq_true.mp visible symbol listed) c inside

end Blanks

/-- Tokens of one character that no longer one begins with. -/
def marks : List (Char × Token) :=
  [('(', .openParen), (')', .closeParen), ('[', .openBracket), (']', .closeBracket), ('.', .dot)]

/-- The token that is read from a character and those behind it, and how many of these it takes. -/
inductive Reading (c : Char) (rest : List Char) : Token → Nat → Prop
  | number (digit : c.isDigit) {value : Float}
      (number : numberOf? (c :: rest.takeWhile continuesNumber) = some value) :
      Reading c rest (.number value) (rest.takeWhile continuesNumber).length
  | text (plain : ¬ c.isDigit) (quote : c = '"' ∨ c = '\x27') {taken : List Char} {count : Nat}
      (found : readText c rest = some (taken, count)) :
      Reading c rest (.text (String.ofList taken)) count
  | name (plain : ¬ c.isDigit) (unquoted : ¬ (c = '"' ∨ c = '\x27')) (starts : startsName c) :
      Reading c rest (.name (String.ofList (c :: rest.takeWhile continuesName)))
        (rest.takeWhile continuesName).length
  | mark {token : Token} (listed : (c, token) ∈ marks) : Reading c rest token 0
  | sign (plain : ¬ c.isDigit) (unquoted : ¬ (c = '"' ∨ c = '\x27')) (nameless : ¬ startsName c)
      (unmarked : c ∉ marks.map (·.1)) {symbol : String}
      (found : (signs.find? fun symbol => symbol.toList.isPrefixOf (c :: rest)) = some symbol) :
      Reading c rest (.sign symbol) (symbol.length - 1)

section Reading

variable {c : Char} {front rest more : List Char} {token : Token} {count : Nat}

theorem read_eq_ok_iff : read c rest = .ok (token, count) ↔ Reading c rest token count := by
  constructor
  · intro taken
    unfold read at taken
    split at taken
    · rename_i digit
      dsimp only at taken
      split at taken
      · rename_i value number
        cases taken
        exact .number digit number
      · contradiction
    rename_i plain
    split at taken
    · rename_i quote
      split at taken
      · rename_i text length found
        cases taken
        exact .text plain quote found
      · contradiction
    rename_i unquoted
    split at taken
    · rename_i starts
      cases taken
      exact .name plain unquoted starts
    rename_i nameless
    split at taken
    case h_6 =>
      rename_i notOpenParen notCloseParen notOpenBracket notCloseBracket notDot
      split at taken
      · rename_i symbol found
        cases taken
        exact .sign plain unquoted nameless (by simp_all [marks]) found
      · contradiction
    all_goals
      cases taken
      exact .mark (by decide)
  · intro reading
    unfold read
    cases reading with
    | number digit number => simp [digit, number]
    | text plain quote found => simp only [plain, quote, found, if_true]; rfl
    | name plain unquoted starts => simp [plain, unquoted, starts]
    | mark listed =>
        simp only [marks, List.mem_cons, Prod.mk.injEq, List.not_mem_nil, or_false] at listed
        rcases listed with ⟨rfl, rfl⟩ | ⟨rfl, rfl⟩ | ⟨rfl, rfl⟩ | ⟨rfl, rfl⟩ | ⟨rfl, rfl⟩ <;> rfl
    | sign plain unquoted nameless unmarked found =>
        rw [if_neg plain, if_neg unquoted, if_neg nameless]
        split
        case h_6 => rw [found]
        all_goals exact absurd (by decide) unmarked

/-- A run that ends inside a text ends there whatever follows, if that does not carry it on. -/
theorem takeWhile_replaced {p : Char → Bool}
    (inside : ((front ++ rest).takeWhile p).length ≤ front.length)
    (stops : ∀ c ∈ more.head?, p c = false) :
    (front ++ more).takeWhile p = (front ++ rest).takeWhile p := by
  induction front with
  | nil =>
      rw [List.nil_append, List.eq_nil_of_length_eq_zero (Nat.le_zero.mp inside)]
      cases more with
      | nil => rfl
      | cons c more => simp [stops c rfl]
  | cons c front ih =>
      simp only [List.cons_append, List.takeWhile_cons] at inside ⊢
      split at inside
      · rename_i carries
        simp only [carries, if_true, ih (Nat.le_of_succ_le_succ inside)]
      · rename_i ends
        simp [ends]

theorem readText_close {quote : Char} (plain : quote ≠ '\\') (rest : List Char) :
    readText quote (quote :: rest) = some ([], 1) := by
  cases rest <;> simp [readText, plain]

theorem readText_plain {quote : Char} (plain : c ≠ '\\') (other : c ≠ quote) (rest : List Char) :
    readText quote (c :: rest) =
      (readText quote rest).map fun (taken, count) => (c :: taken, count + 1) := by
  cases rest <;> simp [readText, plain, other]

/-- A quoted text is read from the characters up to its closing quote, whatever follows. -/
theorem readText_spelled {quote : Char} {text taken : List Char}
    (found : readText quote text = some (taken, count)) :
    ∃ spelled later, text = spelled ++ later ∧ spelled.length = count ∧
      ∀ more, readText quote (spelled ++ more) = some (taken, count) := by
  fun_induction readText quote text generalizing taken count with
  | case1 | case3 => contradiction
  | case2 c closes =>
      obtain ⟨plain, rfl⟩ := closes
      cases found
      exact ⟨[c], [], rfl, rfl, readText_close plain⟩
  | case4 next rest ih =>
      obtain ⟨⟨inner, length⟩, read, same⟩ := Option.map_eq_some_iff.mp found
      cases same
      obtain ⟨spelled, later, rfl, rfl, again⟩ := ih read
      exact ⟨'\\' :: next :: spelled, later, rfl, rfl, fun more => by simp [readText, again more]⟩
  | case5 next rest plain =>
      cases found
      exact ⟨[quote], next :: rest, rfl, rfl, readText_close plain⟩
  | case6 c next rest plain other ih =>
      obtain ⟨⟨inner, length⟩, read, same⟩ := Option.map_eq_some_iff.mp found
      cases same
      obtain ⟨spelled, later, split, rfl, again⟩ := ih read
      exact ⟨c :: spelled, later, by rw [split]; rfl, rfl,
        fun more => by rw [List.cons_append, readText_plain plain other, again more]; rfl⟩

/-- A beginning without blanks does not reach over the end of a text that blanks follow. -/
theorem prefix_of_blank {symbol : List Char} (visible : ∀ c ∈ symbol, ¬ Text.isBlank c)
    (stops : ∀ c ∈ more.head?, Text.isBlank c) (begins : symbol <+: front ++ more) :
    symbol <+: front := by
  by_cases short : symbol.length ≤ front.length
  · exact List.prefix_of_prefix_length_le begins (List.prefix_append _ _) short
  cases more with
  | nil => rwa [List.append_nil] at begins
  | cons c more =>
      have wider : front ++ [c] <+: front ++ c :: more := by simp
      have longer : (front ++ [c]).length ≤ symbol.length := by
        rw [List.length_append, List.length_singleton]
        omega
      have begun := List.prefix_of_prefix_length_le wider begins longer
      exact absurd (stops c rfl) (visible c (begun.subset (by simp)))

/-- The sign that is found stays the first one: a sign before it in the list would have to go on
behind the text, where there is nothing or a blank. -/
theorem find?_sign_replaced {symbol : String}
    (found : (signs.find? fun symbol => symbol.toList.isPrefixOf (c :: (front ++ rest))) =
      some symbol)
    (inside : symbol.length - 1 ≤ front.length) (stops : ∀ c ∈ more.head?, Text.isBlank c) :
    (signs.find? fun symbol => symbol.toList.isPrefixOf (c :: (front ++ more))) = some symbol := by
  simp only [List.find?_eq_some_iff_append, Bool.not_eq_true', ← Bool.not_eq_true,
    List.isPrefixOf_iff_prefix, ← List.cons_append] at found ⊢
  obtain ⟨begins, before, after, split, others⟩ := found
  have short : symbol.toList.length ≤ (c :: front).length := by
    rw [String.length_toList, List.length_cons]
    omega
  have within : symbol.toList <+: c :: front :=
    List.prefix_of_prefix_length_le begins (List.prefix_append _ _) short
  refine ⟨within.trans (List.prefix_append _ _), before, after, split,
    fun other earlier longer => ?_⟩
  have listed : other ∈ signs := split ▸ List.mem_append_left _ earlier
  have whole := prefix_of_blank (fun c inside => visible_of_mem_sign listed inside) stops longer
  exact others other earlier (whole.trans (List.prefix_append _ _))

theorem read_within (taken : read c rest = .ok (token, count)) : count ≤ rest.length := by
  cases read_eq_ok_iff.mp taken with
  | number | name => exact (List.takeWhile_prefix _).length_le
  | text _ _ found =>
      obtain ⟨spelled, later, rfl, rfl, _⟩ := readText_spelled found
      simp
  | mark => exact Nat.zero_le _
  | sign _ _ _ _ found =>
      have begins := List.find?_some found
      have short := (List.isPrefixOf_iff_prefix.mp begins).length_le
      rw [String.length_toList, List.length_cons] at short
      omega

/-- A token that ends inside a text is read from it whatever follows the text, if that is nothing
or begins with a blank. -/
theorem read_replaced (taken : read c (front ++ rest) = .ok (token, count))
    (inside : count ≤ front.length) (stops : ∀ c ∈ more.head?, Text.isBlank c) :
    read c (front ++ more) = .ok (token, count) := by
  rw [read_eq_ok_iff] at taken ⊢
  cases taken with
  | number digit number =>
      have same := takeWhile_replaced inside fun c head => continuesNumber_of_isBlank (stops c head)
      rw [← same] at number ⊢
      exact .number digit number
  | text plain quote found =>
      obtain ⟨spelled, later, split, rfl, again⟩ := readText_spelled found
      obtain ⟨extra, rfl⟩ : spelled <+: front :=
        List.prefix_of_prefix_length_le ⟨later, split.symm⟩ (List.prefix_append _ _) inside
      rw [List.append_assoc]
      exact .text plain quote (again (extra ++ more))
  | name plain unquoted starts =>
      have same := takeWhile_replaced inside fun c head => continuesName_of_isBlank (stops c head)
      rw [← same]
      exact .name plain unquoted starts
  | mark listed => exact .mark listed
  | sign plain unquoted nameless unmarked found =>
      exact .sign plain unquoted nameless unmarked (find?_sign_replaced found inside stops)

end Reading

end Token

end Workflow
