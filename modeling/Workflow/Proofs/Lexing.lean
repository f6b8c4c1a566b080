import Workflow.Expr.Token

/-! Which tokens a text has.

`Token.Lexed` reads tokens from a text without counting them, and a text has
tokens in one way at most.  `Token.scan` finds them if they are not too many.
-/

namespace Workflow.Token

inductive Lexed : List Char → List Token → Prop
  | done : Lexed [] []
  | blank {c : Char} (blank : Text.isBlank c) {rest : List Char} {tokens : List Token}
      (later : Lexed rest tokens) : Lexed (c :: rest) tokens
  | token {c : Char} (visible : ¬ Text.isBlank c) {rest : List Char} {token : Token} {count : Nat}
      (taken : read c rest = .ok (token, count)) {tokens : List Token}
      (later : Lexed (rest.drop count) tokens) : Lexed (c :: rest) (token :: tokens)

variable {text : List Char} {tokens others : List Token}

theorem Lexed.unique (lexed : Lexed text tokens) (other : Lexed text others) : tokens = others := by
  induction lexed generalizing others with
  | done =>
      cases other
      rfl
  | blank blank _ ih =>
      cases other with
      | blank _ later => exact ih later
      | token visible => exact absurd blank visible
  | token visible taken _ ih =>
      cases other with
      | blank blank => exact absurd blank visible
      | token _ again later =>
          rw [taken] at again
          cases again
          rw [ih later]

theorem scanFrom_blank {c : Char} (blank : Text.isBlank c) (room offset : Nat)
    (rest : List Char) :
    scanFrom room offset 0 (c :: rest) = scanFrom room (offset + 1) 0 rest := by
  rw [scanFrom.eq_def]
  exact if_pos blank

theorem scanFrom_full {c : Char} (visible : ¬ Text.isBlank c) (offset : Nat) (rest : List Char) :
    scanFrom 0 offset 0 (c :: rest) = .error ⟨offset, .tooManyTokens⟩ := by
  rw [scanFrom.eq_def]
  exact if_neg visible

theorem scanFrom_token {c : Char} (visible : ¬ Text.isBlank c) {rest : List Char} {token : Token}
    {count : Nat} (taken : read c rest = .ok (token, count)) (room offset : Nat) :
    scanFrom (room + 1) offset 0 (c :: rest) =
      (scanFrom room (offset + 1) count rest).map (⟨offset, token⟩ :: ·) := by
  rw [scanFrom.eq_def]
  dsimp only
  rw [if_neg visible, taken]
  dsimp only
  cases scanFrom room (offset + 1) count rest <;> rfl

theorem scanFrom_sound {room offset skip : Nat} {placed : List Placed}
    (scanned : scanFrom room offset skip text = .ok placed) :
    Lexed (text.drop skip) (placed.map (·.token)) ∧ placed.length ≤ room := by
  induction text generalizing room offset skip placed with
  | nil =>
      rw [scanFrom] at scanned
      cases scanned
      exact ⟨by simpa using Lexed.done, Nat.zero_le _⟩
  | cons c rest ih =>
      cases skip with
      | succ skip =>
          rw [scanFrom] at scanned
          exact ih scanned
      | zero =>
          by_cases blank : Text.isBlank c
          · rw [scanFrom_blank blank] at scanned
            obtain ⟨later, fits⟩ := ih scanned
            exact ⟨.blank blank later, fits⟩
          cases room with
          | zero =>
              rw [scanFrom_full blank] at scanned
              contradiction
          | succ room =>
              cases taken : read c rest with
              | error fault =>
                  rw [scanFrom.eq_def] at scanned
                  simp [blank, taken] at scanned
              | ok result =>
                  obtain ⟨token, count⟩ := result
                  rw [scanFrom_token blank taken] at scanned
                  cases found : scanFrom room (offset + 1) count rest with
                  | error malformed =>
                      rw [found] at scanned
                      contradiction
                  | ok others =>
                      rw [found] at scanned
                      cases scanned
                      obtain ⟨later, fits⟩ := ih found
                      exact ⟨.token blank taken later, Nat.succ_le_succ fits⟩

theorem scanFrom_complete {room : Nat} (offset : Nat) {skip : Nat}
    (lexed : Lexed (text.drop skip) tokens) (fits : tokens.length ≤ room) :
    ∃ placed, scanFrom room offset skip text = .ok placed ∧ placed.map (·.token) = tokens := by
  induction text generalizing room offset skip tokens with
  | nil =>
      rw [List.drop_nil] at lexed
      cases lexed
      exact ⟨[], by rw [scanFrom], rfl⟩
  | cons c rest ih =>
      cases skip with
      | succ skip =>
          rw [scanFrom]
          exact ih _ lexed fits
      | zero =>
          cases lexed with
          | blank blank later =>
              rw [scanFrom_blank blank]
              exact ih _ later fits
          | token visible taken later =>
              cases room with
              | zero => contradiction
              | succ room =>
                  obtain ⟨placed, scanned, same⟩ :=
                    ih (offset + 1) later (Nat.le_of_succ_le_succ fits)
                  refine ⟨_, by rw [scanFrom_token visible taken, scanned]; rfl, ?_⟩
                  rw [List.map_cons, same]

/-- A text with more tokens than there is room for is refused as too long. -/
theorem scanFrom_long {room : Nat} (offset : Nat) {skip : Nat}
    (lexed : Lexed (text.drop skip) tokens) (long : room < tokens.length) :
    ∃ place, scanFrom room offset skip text = .error ⟨place, .tooManyTokens⟩ := by
  induction text generalizing room offset skip tokens with
  | nil =>
      rw [List.drop_nil] at lexed
      cases lexed
      contradiction
  | cons c rest ih =>
      cases skip with
      | succ skip =>
          rw [scanFrom]
          exact ih _ lexed long
      | zero =>
          cases lexed with
          | blank blank later =>
              rw [scanFrom_blank blank]
              exact ih _ later long
          | token visible taken later =>
              cases room with
              | zero => exact ⟨offset, scanFrom_full visible offset rest⟩
              | succ room =>
                  obtain ⟨place, refused⟩ := ih (offset + 1) later (Nat.lt_of_succ_lt_succ long)
                  exact ⟨place, by rw [scanFrom_token visible taken, refused]; rfl⟩

theorem scan_sound {placed : List Placed} (scanned : scan text = .ok placed) :
    Lexed text (placed.map (·.token)) ∧ placed.length ≤ limit :=
  scanFrom_sound scanned

theorem scan_complete (lexed : Lexed text tokens) (fits : tokens.length ≤ limit) :
    ∃ placed, scan text = .ok placed ∧ placed.map (·.token) = tokens :=
  scanFrom_complete 0 (text.drop_zero.symm ▸ lexed) fits

theorem scan_long (lexed : Lexed text tokens) (long : limit < tokens.length) :
    ∃ place, scan text = .error ⟨place, .tooManyTokens⟩ :=
  scanFrom_long 0 (text.drop_zero.symm ▸ lexed) long

end Workflow.Token
