import Mathlib.Data.List.Nodup
import Workflow.Proofs.Lexing
import Workflow.Proofs.Parsing.Completeness

/-! Parsing agrees with the grammar.

A parser reads in one way only, and stops in one place, so there is one
derivation of a list of tokens at most.
-/

namespace Workflow.Expr

section Uniqueness

variable {phrase : Phrase} {level : Level} {tokens first last other behind : List Token}

/-- A phrase ends in one place only, as its parser does. -/
theorem Derivation.same_split (derivation : Derivation phrase first)
    (again : Derivation phrase other) (same : first ++ last = other ++ behind)
    (stops : Stops phrase last) (ends : Stops phrase behind) : first = other ∧ last = behind := by
  let place (tokens : List Token) : List Placed := tokens.map fun token => ⟨0, token⟩
  have spelled (tokens : List Token) : (place tokens).map (·.token) = tokens := by
    simp [place, Function.comp_def]
  have stopping : Stops phrase ((place last).map (·.token)) := by rwa [spelled]
  have ending : Stops phrase ((place behind).map (·.token)) := by rwa [spelled]
  have parsed := derivation.parsed (Nat.le_add_right _ again.nesting) 0 (spelled first) stopping
  have reparsed := again.parsed (Nat.le_add_left _ derivation.nesting) 0 (spelled other) ending
  have equal : place first ++ place last = place other ++ place behind := by
    simp only [place, ← List.map_append, same]
  rw [equal, reparsed] at parsed
  have rest := congrArg (List.map (·.token)) (Prod.mk.inj (Except.ok.inj parsed)).2
  rw [spelled, spelled] at rest
  subst rest
  exact ⟨List.append_cancel_right same, rfl⟩

theorem Steps.unique (steps others : Steps tokens) : steps = others := by
  induction steps with
  | done =>
      cases others
      rfl
  | field name later ih =>
      cases others with
      | field _ rest => rw [ih rest]
  | text name later ih =>
      cases others with
      | text _ rest => rw [ih rest]
  | index number position indexes later ih =>
      cases others with
      | index _ place same rest =>
          obtain rfl := Option.some.inj ((index?_eq_some_iff.mpr indexes).symm.trans
            (index?_eq_some_iff.mpr same))
          rw [ih rest]

theorem More.stops_alone (more : More level tokens) : Stops level.operand tokens := by
  have alone := more.stops (Stops.nil (.joined level))
  rwa [List.append_nil] at alone

theorem Derivation.primary_head {token : Token}
    (derivation : Derivation .primary (token :: tokens)) :
    token ∉ Phrase.unary.prefixes.map (·.1) := by
  cases derivation with
  | prefixed _ _ _ listed => contradiction
  | number | text | constant | path => simp [Phrase.prefixes]
  | parens split =>
      obtain rfl := List.head_eq_of_cons_eq split
      simp [Phrase.prefixes]

theorem Rooted.ne_constant {name : String} {start : List Segment} {value : Json}
    (rooted : Rooted name start) : (name, value) ∉ constants := by
  intro listed
  have path := Root.ofName_eq_path_iff.mpr rooted
  rw [Root.ofName_eq_literal_iff.mpr listed] at path
  contradiction

theorem Phrase.operator_unique {token : Token} {operator others : Expr → Expr}
    (listed : (token, operator) ∈ phrase.prefixes) (also : (token, others) ∈ phrase.prefixes) :
    operator = others := by
  have distinct : (phrase.prefixes.map (·.1)).Nodup := by
    cases phrase <;> simp [prefixes]
  exact (Prod.mk.inj (List.inj_on_of_nodup_map distinct listed also rfl)).2

theorem operator_unique {token : Token} {operator others : Operator}
    (listed : (token, operator) ∈ comparisons) (also : (token, others) ∈ comparisons) :
    operator = others := by
  have distinct : (comparisons.map (·.1)).Nodup := by decide
  exact (Prod.mk.inj (List.inj_on_of_nodup_map distinct listed also rfl)).2

mutual

theorem Derivation.unique : ∀ {phrase : Phrase} {tokens : List Token}
    (derivation others : Derivation phrase tokens), derivation = others
  | _, _, .joined level split operand more, others => by
      cases others with
      | prefixed _ _ _ listed => contradiction
      | joined _ splits first rest =>
          obtain ⟨rfl, rfl⟩ := operand.same_split first (split.symm.trans splits) more.stops_alone
            rest.stops_alone
          rw [operand.unique first, more.unique rest]
  | _, _, .prefixed phrase token operator listed operand, others => by
      cases others with
      | prefixed _ _ _ also again =>
          obtain rfl := Phrase.operator_unique listed also
          rw [operand.unique again]
      | bare bare =>
          exact absurd (List.mem_map.mpr ⟨(token, operator), listed, rfl⟩) (bare token rfl)
      | primary inner =>
          exact absurd (List.mem_map.mpr ⟨(token, operator), listed, rfl⟩) inner.primary_head
      | joined | single | compare | number | text | constant | path | parens => contradiction
  | _, _, .bare bare inner, others => by
      cases others with
      | prefixed _ token operator listed _ =>
          exact absurd (List.mem_map.mpr ⟨(token, operator), listed, rfl⟩) (bare token rfl)
      | bare _ again => rw [inner.unique again]
  | _, _, .single inner, others => by
      cases others with
      | prefixed _ _ _ listed => contradiction
      | single again => rw [inner.unique again]
      | compare _ _ listed split left _ =>
          have whole := inner.same_split left ((List.append_nil _).trans split) (.nil _)
            (.comparison listed)
          exact absurd whole.2.symm (List.cons_ne_nil _ _)
  | _, _, .compare token operator listed split left right, others => by
      cases others with
      | prefixed _ _ _ listed => contradiction
      | single again =>
          have whole := again.same_split left ((List.append_nil _).trans split) (.nil _)
            (.comparison listed)
          exact absurd whole.2.symm (List.cons_ne_nil _ _)
      | compare _ _ also splits first last =>
          obtain ⟨rfl, same⟩ := left.same_split first (split.symm.trans splits)
            (.comparison listed) (.comparison also)
          obtain ⟨rfl, rfl⟩ := List.cons.inj same
          obtain rfl := operator_unique listed also
          rw [left.unique first, right.unique last]
  | _, _, .primary inner, others => by
      cases others with
      | prefixed _ token operator listed _ =>
          exact absurd (List.mem_map.mpr ⟨(token, operator), listed, rfl⟩) inner.primary_head
      | primary again => rw [inner.unique again]
  | _, _, .number value, others => by
      cases others with
      | prefixed _ _ _ listed => contradiction
      | number => rfl
      | parens split => cases split
  | _, _, .text value, others => by
      cases others with
      | prefixed _ _ _ listed => contradiction
      | text => rfl
      | parens split => cases split
  | _, _, .constant name value listed, others => by
      cases others with
      | prefixed _ _ _ listed => contradiction
      | constant _ other also =>
          have same := (Root.ofName_eq_literal_iff.mpr listed).symm.trans
            (Root.ofName_eq_literal_iff.mpr also)
          cases same
          rfl
      | path _ _ rooted => exact absurd listed rooted.ne_constant
      | parens split => cases split
  | _, _, .path name start rooted steps, others => by
      cases others with
      | prefixed _ _ _ listed => contradiction
      | constant _ _ listed => exact absurd listed rooted.ne_constant
      | path _ _ again rest =>
          obtain rfl := rooted.unique again
          rw [steps.unique rest]
      | parens split => cases split
  | _, _, .parens split inner, others => by
      cases others with
      | prefixed _ _ _ listed => contradiction
      | parens splits again =>
          have same := split.symm.trans splits
          obtain rfl := List.append_cancel_right (List.cons.inj same).2
          rw [inner.unique again]
      | number | text | constant | path => cases split

theorem More.unique : ∀ {level : Level} {tokens : List Token} (more others : More level tokens),
    more = others
  | _, _, .done level, others => by
      cases others with
      | done => rfl
      | joint _ _ _ _ split => cases split
  | _, _, .joint level token join listed split operand more, others => by
      cases others with
      | done => cases split
      | joint _ again joins also splits first rest =>
          obtain ⟨rfl, same⟩ := List.cons.inj (split.symm.trans splits)
          obtain ⟨rfl, rfl⟩ := operand.same_split first same more.stops_alone rest.stops_alone
          obtain rfl := Option.some.inj ((Level.joint_eq_some_iff.mpr listed).symm.trans
            (Level.joint_eq_some_iff.mpr also))
          rw [operand.unique first, more.unique rest]

end

end Uniqueness

theorem ofTokens_eq_ok_iff {stop : Nat} {placed : List Placed} {expr : Expr} :
    ofTokens stop placed = .ok expr ↔
      (Phrase.joined .or).parser stop nestingLimit placed = .ok (expr, []) := by
  rw [ofTokens, Phrase.parser]
  cases orPhrase stop (deeper stop nestingLimit) placed with
  | error malformed => exact ⟨nofun, nofun⟩
  | ok result =>
      obtain ⟨read, rest⟩ := result
      cases rest with
      | nil => simp
      | cons next later => simp

theorem ofTokens_eq_error {stop : Nat} {placed : List Placed} {malformed : Malformed}
    (refused : (Phrase.joined .or).parser stop nestingLimit placed = .error malformed) :
    ofTokens stop placed = .error malformed := by
  rw [Phrase.parser] at refused
  rw [ofTokens, refused]

/-- What a text is parsed to hangs on its tokens alone, wherever they stand. -/
theorem parse_eq_ok_iff {source : String} {expr : Expr} :
    parse source = .ok expr ↔
      ∃ placed, Token.scan source.toList = .ok placed ∧
        ∃ derivation : Derivation (.joined .or) (placed.map (·.token)),
          derivation.nesting ≤ nestingLimit ∧ derivation.expr = expr := by
  dsimp only [parse]
  cases scanned : Token.scan source.toList with
  | error malformed => exact ⟨nofun, nofun⟩
  | ok placed =>
      dsimp only
      rw [ofTokens_eq_ok_iff]
      constructor
      · intro read
        have sound := parser_sound (deeper_sound source.toList.length nestingLimit) (.joined .or)
        obtain ⟨front, same, derivation, shallow, expr⟩ := sound read
        obtain rfl : placed = front := same.trans (List.append_nil front)
        exact ⟨placed, rfl, derivation, Nat.le_of_lt_succ shallow, expr⟩
      · rintro ⟨_, ⟨⟩, derivation, shallow, rfl⟩
        have closed : Stops (.joined .or) (([] : List Placed).map (·.token)) := Stops.nil _
        have read := derivation.parsed shallow source.toList.length rfl closed
        rwa [List.append_nil] at read

/-- A text is an expression exactly if its tokens are not too many and derive it without too
much nesting.  It has tokens in one way and these have one derivation at most, and it is
refused for what it has too much of. -/
theorem parse_eq_ok_iff_derives (source : String) (expr : Expr) :
    (parse source = .ok expr ↔
      ∃ tokens, Token.Lexed source.toList tokens ∧ tokens.length ≤ Token.limit ∧
        ∃ derivation : Derivation (.joined .or) tokens,
          derivation.nesting ≤ nestingLimit ∧ derivation.expr = expr) ∧
    (∀ tokens others, Token.Lexed source.toList tokens → Token.Lexed source.toList others →
      tokens = others) ∧
    (∀ tokens, Subsingleton (Derivation (.joined .or) tokens)) ∧
    (∀ tokens, Token.Lexed source.toList tokens → Token.limit < tokens.length →
      ∃ place, parse source = .error ⟨place, .tooManyTokens⟩) ∧
    ∀ tokens, Token.Lexed source.toList tokens → tokens.length ≤ Token.limit →
      ∀ derivation : Derivation (.joined .or) tokens, nestingLimit < derivation.nesting →
        ∃ place, parse source = .error ⟨place, .nestedTooDeep⟩ := by
  have closed : Stops (.joined .or) (([] : List Placed).map (·.token)) := Stops.nil _
  refine ⟨⟨fun parsed => ?_, ?_⟩, fun _ _ => Token.Lexed.unique, fun _ => ⟨Derivation.unique⟩,
    ?_, ?_⟩
  · rw [parse] at parsed
    cases scanned : Token.scan source.toList with
    | error malformed =>
        rw [scanned] at parsed
        contradiction
    | ok placed =>
        rw [scanned] at parsed
        obtain ⟨lexed, fits⟩ := Token.scan_sound scanned
        have sound := parser_sound (deeper_sound source.toList.length nestingLimit) (.joined .or)
        obtain ⟨front, same, derivation, shallow, expr⟩ := sound (ofTokens_eq_ok_iff.mp parsed)
        obtain rfl : placed = front := same.trans (List.append_nil front)
        exact ⟨_, lexed, by simpa using fits, derivation, Nat.le_of_lt_succ shallow, expr⟩
  · rintro ⟨tokens, lexed, fits, derivation, shallow, rfl⟩
    obtain ⟨placed, scanned, same⟩ := Token.scan_complete lexed fits
    have read := derivation.parsed shallow source.toList.length same closed
    rw [List.append_nil] at read
    rw [parse, scanned]
    exact ofTokens_eq_ok_iff.mpr read
  · intro tokens lexed long
    obtain ⟨place, refused⟩ := Token.scan_long lexed long
    exact ⟨place, by rw [parse, refused]⟩
  · intro tokens lexed fits derivation deep
    obtain ⟨placed, scanned, same⟩ := Token.scan_complete lexed fits
    obtain ⟨place, refused⟩ := derivation.refused deep source.toList.length same closed
    rw [List.append_nil] at refused
    rw [parse, scanned]
    exact ⟨place, ofTokens_eq_error refused⟩

end Workflow.Expr
