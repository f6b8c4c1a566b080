import Workflow.Proofs.Parsing
import Workflow.Proofs.Reading

/-! Blanks between tokens.

`Token.Cuts` cuts a text into tokens and blanks in front of a rest that is there to be looked at,
so that two texts can be put behind each other (`Token.Cuts.append`), and the rest can be replaced
by a blank one (`Token.Cuts.replaced`).  `Token.listing_composes` says what this means for texts
with blanks between them, for blanks in the text of an expression, and for the positions of
tokens.
-/

namespace Workflow

/-- The same token further on. -/
def Placed.moved (distance : Nat) (placed : Placed) : Placed :=
  { placed with offset := placed.offset + distance }

namespace Token

/-- In front of `rest`, a text whose first character stands at `offset` is these tokens, with
blanks around them. -/
inductive Cuts (rest : List Char) : Nat → List Char → List Placed → Prop
  | done (offset : Nat) : Cuts rest offset [] []
  | blank {c : Char} (blank : Text.isBlank c) {offset : Nat} {text : List Char}
      {placed : List Placed} (later : Cuts rest (offset + 1) text placed) :
      Cuts rest offset (c :: text) placed
  | token {c : Char} (visible : ¬ Text.isBlank c) {spelled text : List Char} {token : Token}
      (taken : read c (spelled ++ text ++ rest) = .ok (token, spelled.length)) {offset : Nat}
      {placed : List Placed} (later : Cuts rest (offset + 1 + spelled.length) text placed) :
      Cuts rest offset (c :: spelled ++ text) (⟨offset, token⟩ :: placed)

/-- A place in a text at which no token is cut in two. -/
def Seam (front back : List Char) : Prop :=
  ∃ placed, Cuts back 0 front placed

/-- The tokens of a text with their positions, and behind them the end of the text. -/
def listing (text : List Char) : Except Expr.Malformed (List (Nat × Option Token)) :=
  (scan text).map fun placed =>
    placed.map (fun next => (next.offset, some next.token)) ++ [(text.length, none)]

namespace Cuts

variable {offset : Nat} {front back rest more : List Char} {first second : List Placed}

theorem blanks (blank : ∀ c ∈ front, Text.isBlank c) (offset : Nat) :
    Cuts rest offset front [] := by
  induction front generalizing offset with
  | nil => exact .done offset
  | cons c front ih =>
      obtain ⟨head, tail⟩ := List.forall_mem_cons.mp blank
      exact .blank head (ih tail (offset + 1))

theorem replaced (cuts : Cuts rest offset front first)
    (stops : ∀ c ∈ more.head?, Text.isBlank c) : Cuts more offset front first := by
  induction cuts with
  | done offset => exact .done offset
  | blank blank _ ih => exact .blank blank ih
  | token visible taken _ ih => exact .token visible (read_replaced taken (by simp) stops) ih

theorem append (cuts : Cuts (back ++ rest) offset front first)
    (later : Cuts rest (offset + front.length) back second) :
    Cuts rest offset (front ++ back) (first ++ second) := by
  induction cuts with
  | done offset => exact later
  | blank blank _ ih =>
      refine .blank blank (ih ?_)
      rwa [List.length_cons, Nat.add_comm _ 1, ← Nat.add_assoc] at later
  | token visible taken _ ih =>
      rw [List.append_assoc]
      refine .token visible (by simpa using taken) (ih ?_)
      simpa [Nat.add_assoc, Nat.add_comm 1] using later

theorem moved (cuts : Cuts rest offset front first) (distance : Nat) :
    Cuts rest (offset + distance) front (first.map (·.moved distance)) := by
  induction cuts with
  | done offset => exact .done _
  | blank blank _ ih => exact .blank blank (by simpa [Nat.add_right_comm] using ih)
  | token visible taken _ ih => exact .token visible taken (by simpa [Nat.add_right_comm] using ih)

/-- What has been cut into tokens says nothing about the tokens of the rest. -/
theorem lexed_iff (cuts : Cuts rest offset front first) {tokens : List Token} :
    Lexed (front ++ rest) tokens ↔
      ∃ later, tokens = first.map (·.token) ++ later ∧ Lexed rest later := by
  induction cuts generalizing tokens with
  | done offset => simp
  | blank blank _ ih =>
      rw [← ih]
      constructor
      · intro lexed
        cases lexed with
        | blank _ later => exact later
        | token visible => exact absurd blank visible
      · exact .blank blank
  | @token c visible spelled text token taken offset placed _ ih =>
      have split : (spelled ++ text ++ rest).drop spelled.length = text ++ rest := by
        rw [List.append_assoc, List.drop_left]
      constructor
      · intro lexed
        cases lexed with
        | blank blank => exact absurd blank visible
        | token _ again later =>
            obtain ⟨rfl, rfl⟩ := Prod.mk.inj (Except.ok.inj (taken.symm.trans again))
            rw [List.append_eq, List.append_eq, split] at later
            obtain ⟨others, rfl, lexed⟩ := ih.mp later
            exact ⟨others, rfl, lexed⟩
      · rintro ⟨later, rfl, lexed⟩
        refine .token visible taken ?_
        rw [split]
        exact ih.mpr ⟨later, rfl, lexed⟩

/-- A token stands where it begins, behind the tokens before it. -/
theorem split {next : Placed} (cuts : Cuts rest offset front (first ++ next :: second)) :
    ∃ before c spelled behind, front = before ++ (c :: spelled ++ behind) ∧
      next.offset = offset + before.length ∧ ¬ Text.isBlank c ∧
      read c (spelled ++ (behind ++ rest)) = .ok (next.token, spelled.length) ∧
      Cuts (c :: spelled ++ (behind ++ rest)) offset before first := by
  generalize whole : first ++ next :: second = placed at cuts
  induction cuts generalizing first with
  | done => simp at whole
  | blank blank _ ih =>
      obtain ⟨before, c, spelled, behind, rfl, place, visible, taken, cuts⟩ := ih whole
      refine ⟨_ :: before, c, spelled, behind, rfl, ?_, visible, taken, .blank blank cuts⟩
      rw [place, List.length_cons]
      omega
  | @token c visible spelled text token taken offset placed _ ih =>
      cases first with
      | nil =>
          obtain ⟨rfl, rfl⟩ := List.cons.inj whole
          exact ⟨[], c, spelled, text, rfl, rfl, visible, by simpa using taken, .done offset⟩
      | cons head first =>
          obtain ⟨rfl, others⟩ := List.cons.inj whole
          obtain ⟨before, d, inner, behind, rfl, place, found, read, cuts⟩ := ih others
          refine ⟨c :: spelled ++ before, d, inner, behind, by simp, ?_, found, read,
            .token visible (by simpa using taken) cuts⟩
          rw [place, List.length_append, List.length_cons]
          omega

end Cuts

section Scanning

variable {text : List Char} {placed : List Placed}

theorem scanFrom_skip (room offset skip : Nat) (text : List Char) :
    scanFrom room offset skip text = scanFrom room (offset + skip) 0 (text.drop skip) := by
  induction text generalizing offset skip with
  | nil => rw [List.drop_nil, scanFrom, scanFrom]
  | cons c rest ih =>
      cases skip with
      | zero => rfl
      | succ skip =>
          rw [scanFrom, ih, Nat.add_right_comm]
          rfl

theorem Cuts.scanned {room offset : Nat} (cuts : Cuts [] offset text placed)
    (fits : placed.length ≤ room) : scanFrom room offset 0 text = .ok placed := by
  induction cuts generalizing room with
  | done offset => rw [scanFrom]
  | blank blank _ ih =>
      rw [scanFrom_blank blank]
      exact ih fits
  | token visible taken _ ih =>
      cases room with
      | zero => contradiction
      | succ room =>
          rw [List.append_nil] at taken
          rw [List.cons_append, scanFrom_token visible taken, scanFrom_skip, List.drop_left,
            ih (Nat.le_of_succ_le_succ fits)]
          rfl

theorem Lexed.cuts {tokens : List Token} (lexed : Lexed text tokens) (offset : Nat) :
    ∃ placed, Cuts [] offset text placed ∧ placed.map (·.token) = tokens := by
  induction lexed generalizing offset with
  | done => exact ⟨[], .done offset, rfl⟩
  | blank blank _ ih =>
      obtain ⟨placed, cuts, same⟩ := ih (offset + 1)
      exact ⟨placed, .blank blank cuts, same⟩
  | @token c visible rest token count taken _ _ ih =>
      obtain ⟨placed, cuts, same⟩ := ih (offset + 1 + count)
      have length : (rest.take count).length = count := List.length_take_of_le (read_within taken)
      have whole : rest.take count ++ rest.drop count = rest := List.take_append_drop count rest
      refine ⟨⟨offset, token⟩ :: placed, ?_, by rw [List.map_cons, same]⟩
      rw [← whole, ← List.cons_append]
      exact .token visible (by rwa [List.append_nil, whole, length]) (by rwa [length])

theorem scan_eq_ok_iff :
    scan text = .ok placed ↔ Cuts [] 0 text placed ∧ placed.length ≤ limit := by
  constructor
  · intro scanned
    obtain ⟨lexed, fits⟩ := scan_sound scanned
    obtain ⟨others, cuts, same⟩ := lexed.cuts 0
    have length : others.length = placed.length := by simpa using congrArg List.length same
    have again := cuts.scanned (length ▸ fits)
    obtain rfl := Except.ok.inj (scanned.symm.trans again)
    exact ⟨cuts, fits⟩
  · rintro ⟨cuts, fits⟩
    exact cuts.scanned fits

theorem listing_eq_ok_iff {entries : List (Nat × Option Token)} :
    listing text = .ok entries ↔
      ∃ placed, scan text = .ok placed ∧
        placed.map (fun next => (next.offset, some next.token)) ++ [(text.length, none)] =
          entries := by
  unfold listing
  cases scan text <;> simp [Except.map]

end Scanning

section Joining

variable {front back blanks others : List Char} {first second : List Placed}

theorem blank_of_head (apart : blanks ≠ []) (blank : ∀ c ∈ blanks, Text.isBlank c) :
    ∀ c ∈ (blanks ++ back).head?, Text.isBlank c := by
  obtain ⟨c, later, rfl⟩ := List.exists_cons_of_ne_nil apart
  rintro _ ⟨⟩
  exact blank c List.mem_cons_self

theorem scan_joined (front_scanned : scan front = .ok first) (back_scanned : scan back = .ok second)
    (few : first.length + second.length ≤ limit) (apart : blanks ≠ [])
    (blank : ∀ c ∈ blanks, Text.isBlank c) :
    scan (front ++ blanks ++ back) =
      .ok (first ++ second.map (·.moved (front ++ blanks).length)) := by
  rw [scan_eq_ok_iff] at front_scanned back_scanned ⊢
  have begun : Cuts (blanks ++ back) 0 front first :=
    front_scanned.1.replaced (blank_of_head apart blank)
  have paused : Cuts (back ++ []) 0 (front ++ blanks) (first ++ []) := by
    rw [List.append_nil back]
    exact begun.append (.blanks blank _)
  have cuts := paused.append (back_scanned.1.moved (front ++ blanks).length)
  rw [List.append_nil first] at cuts
  exact ⟨cuts, by simpa using few⟩

theorem listing_joined {entries later : List (Nat × Option Token)}
    (front_listed : listing front = .ok entries) (back_listed : listing back = .ok later)
    (few : entries.dropLast.length + later.dropLast.length ≤ limit) (apart : blanks ≠ [])
    (blank : ∀ c ∈ blanks, Text.isBlank c) :
    listing (front ++ blanks ++ back) =
      .ok (entries.dropLast ++ later.map fun (offset, found) =>
        (offset + (front ++ blanks).length, found)) := by
  obtain ⟨first, front_scanned, rfl⟩ := listing_eq_ok_iff.mp front_listed
  obtain ⟨second, back_scanned, rfl⟩ := listing_eq_ok_iff.mp back_listed
  rw [List.dropLast_concat, List.dropLast_concat, List.length_map, List.length_map] at few
  have joined := scan_joined front_scanned back_scanned few apart blank
  refine listing_eq_ok_iff.mpr ⟨_, joined, ?_⟩
  simp only [Placed.moved, List.map_append, List.map_map, Function.comp_def, List.dropLast_concat,
    List.append_assoc, List.map_cons, List.map_nil, List.length_append]
  rw [Nat.add_comm back.length, Nat.add_assoc]

theorem Cuts.lexed_blanks_iff {offset : Nat} (cuts : Cuts (blanks ++ back) offset front first)
    (blank : ∀ c ∈ blanks, Text.isBlank c) {tokens : List Token} :
    Lexed (front ++ blanks ++ back) tokens ↔
      ∃ later, tokens = first.map (·.token) ++ later ∧ Lexed back later := by
  have gap : Cuts back 0 blanks [] := .blanks blank 0
  simp [List.append_assoc, cuts.lexed_iff, gap.lexed_iff]

/-- Where no token is cut in two, other blanks make no other tokens. -/
theorem Seam.lexed_iff (seam : Seam front (blanks ++ back)) (joined : others = [] → Seam front back)
    (blank : ∀ c ∈ blanks, Text.isBlank c) (also : ∀ c ∈ others, Text.isBlank c)
    {tokens : List Token} :
    Lexed (front ++ blanks ++ back) tokens ↔ Lexed (front ++ others ++ back) tokens := by
  have common : ∃ placed, Cuts (blanks ++ back) 0 front placed ∧
      Cuts (others ++ back) 0 front placed := by
    rcases eq_or_ne others [] with rfl | apart
    · obtain ⟨placed, cuts⟩ := joined rfl
      rcases eq_or_ne blanks [] with rfl | apart
      · exact ⟨placed, cuts, cuts⟩
      · exact ⟨placed, cuts.replaced (blank_of_head apart blank), cuts⟩
    · obtain ⟨placed, cuts⟩ := seam
      exact ⟨placed, cuts, cuts.replaced (blank_of_head apart also)⟩
  obtain ⟨placed, before, after⟩ := common
  rw [before.lexed_blanks_iff blank, after.lexed_blanks_iff also]

end Joining

end Token

namespace Expr

theorem parse_ok_of_lexed {source other : String} {expr : Expr}
    (same : ∀ tokens, Token.Lexed source.toList tokens → Token.Lexed other.toList tokens)
    (parsed : parse source = .ok expr) : parse other = .ok expr := by
  obtain ⟨placed, scanned, derived⟩ := parse_eq_ok_iff.mp parsed
  obtain ⟨lexed, few⟩ := Token.scan_sound scanned
  obtain ⟨others, rescanned, equal⟩ := Token.scan_complete (same _ lexed) (by simpa using few)
  exact parse_eq_ok_iff.mpr ⟨others, rescanned, equal ▸ derived⟩

theorem parse_across_seam {front blanks others back : String}
    (seam : Token.Seam front.toList (blanks ++ back).toList)
    (joined : others = "" → Token.Seam front.toList back.toList)
    (blank : ∀ c ∈ blanks.toList, Text.isBlank c) (also : ∀ c ∈ others.toList, Text.isBlank c)
    (expr : Expr) :
    parse (front ++ blanks ++ back) = .ok expr ↔ parse (front ++ others ++ back) = .ok expr := by
  rw [String.toList_append] at seam
  have none : others.toList = [] → Token.Seam front.toList back.toList := by simpa using joined
  have same (tokens : List Token) : Token.Lexed (front ++ blanks ++ back).toList tokens ↔
      Token.Lexed (front ++ others ++ back).toList tokens := by
    simpa only [String.toList_append] using seam.lexed_iff none blank also
  exact ⟨parse_ok_of_lexed fun tokens => (same tokens).mp,
    parse_ok_of_lexed fun tokens => (same tokens).mpr⟩

end Expr

namespace Token

theorem scan_places {text : List Char} {first second : List Placed} {next : Placed}
    (scanned : scan text = .ok (first ++ next :: second)) :
    ∃ front c spelled back, text = front ++ (c :: spelled ++ back) ∧
      next.offset = front.length ∧ ¬ Text.isBlank c ∧
      read c (spelled ++ back) = .ok (next.token, spelled.length) ∧
      Seam front (c :: spelled ++ back) ∧ Seam (front ++ c :: spelled) back := by
  obtain ⟨cuts, _⟩ := scan_eq_ok_iff.mp scanned
  obtain ⟨front, c, spelled, back, rfl, place, visible, taken, before⟩ := cuts.split
  rw [List.append_nil] at taken before
  have alone : Cuts back (0 + front.length) (c :: spelled ++ [])
      [⟨0 + front.length, next.token⟩] := .token visible (by simpa using taken) (.done _)
  rw [List.append_nil] at alone
  exact ⟨front, c, spelled, back, rfl, by simpa using place, visible, taken, ⟨_, before⟩,
    ⟨_, before.append alone⟩⟩

/-- Two texts with blanks between them have the tokens of the first, and then those of the second
further on, with its end.  An expression stays the same with other blanks between its tokens, or
with none where its tokens end and begin without them.  Every token stands where it begins, and
no token is cut in two there or where it ends. -/
theorem listing_composes :
    (∀ (front blanks back : String) (first second : List (Nat × Option Token)),
      listing front.toList = .ok first → listing back.toList = .ok second →
      first.dropLast.length + second.dropLast.length ≤ limit →
      blanks ≠ "" → (∀ c ∈ blanks.toList, Text.isBlank c) →
      listing (front ++ blanks ++ back).toList =
        .ok (first.dropLast ++ second.map fun (offset, found) =>
          (offset + (front ++ blanks).length, found))) ∧
    (∀ front blanks others back : String, Seam front.toList (blanks ++ back).toList →
      (others = "" → Seam front.toList back.toList) →
      (∀ c ∈ blanks.toList, Text.isBlank c) → (∀ c ∈ others.toList, Text.isBlank c) →
      ∀ expr, Expr.parse (front ++ blanks ++ back) = .ok expr ↔
        Expr.parse (front ++ others ++ back) = .ok expr) ∧
    ∀ (text : String) (first second : List Placed) (next : Placed),
      scan text.toList = .ok (first ++ next :: second) →
      ∃ front c spelled back, text.toList = front ++ (c :: spelled ++ back) ∧
        next.offset = front.length ∧ ¬ Text.isBlank c ∧
        read c (spelled ++ back) = .ok (next.token, spelled.length) ∧
        Seam front (c :: spelled ++ back) ∧ Seam (front ++ c :: spelled) back := by
  refine ⟨fun front blanks back first second front_listed back_listed few apart blank => ?_,
    fun _ _ _ _ => Expr.parse_across_seam, fun _ _ _ _ => scan_places⟩
  have joined := listing_joined front_listed back_listed few (by simpa using apart) blank
  rwa [← String.toList_append, ← String.toList_append, String.length_toList] at joined

/-- A comparison with blanks in front of its right side, and the same without them. -/
theorem listing_of_spaced_composes :
    listing ("a<=" ++ " \t" ++ "'b c'").toList =
      .ok [(0, some (.name "a")), (1, some (.sign "<=")), (5, some (.text "b c")), (10, none)] ∧
    Expr.parse ("a<=" ++ " \t" ++ "'b c'") =
      .ok (.binary .lessOrEqual (.path [.field "a"]) (.literal (.string "b c"))) := by
  obtain ⟨composes, keeps, _⟩ := listing_composes
  have sign : Cuts "'b c'".toList 1 ('<' :: ['='] ++ []) [⟨1, .sign "<="⟩] :=
    .token (by decide) rfl (.done _)
  have cuts : Cuts "'b c'".toList 0 ('a' :: [] ++ ['<', '=']) [⟨0, .name "a"⟩, ⟨1, .sign "<="⟩] :=
    .token (by decide) rfl sign
  have blank : ∀ c ∈ " \t".toList, Text.isBlank c := List.all_eq_true.mp rfl
  refine ⟨composes "a<=" " \t" "'b c'" _ _ rfl rfl (by decide) (by decide) blank, ?_⟩
  exact (keeps "a<=" "" " \t" "'b c'" ⟨_, cuts⟩ (by simp) (by simp) blank _).mp rfl

end Token

end Workflow
