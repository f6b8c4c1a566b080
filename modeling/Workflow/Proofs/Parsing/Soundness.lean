import Workflow.Proofs.Grammar

/-! What a parser reads has a derivation.

`Phrase.parser` is the parser of each phrase, and the tables of the grammar say
what the parser asks of a token.  Each parser is sound if those that it calls
are, which for those further down is a question of how much may be nested.
-/

namespace Workflow.Expr

/-- The parser of a phrase in which `levels` more may be nested. -/
def Phrase.parser (stop levels : Nat) : Phrase → Parser Expr
  | .joined .or => orPhrase stop (deeper stop levels)
  | .joined .and => andPhrase stop (deeper stop levels)
  | .joined .sum => sum stop (deeper stop levels)
  | .joined .product => product stop (deeper stop levels)
  | .not => notPhrase stop (deeper stop levels)
  | .compare => Expr.compare stop (deeper stop levels)
  | .unary => Expr.unary stop (deeper stop levels)
  | .primary => Expr.primary stop (deeper stop levels)

def Level.joint : Level → Joint
  | .or => orJoint
  | .and => andJoint
  | .sum => sumJoint
  | .product => productJoint

theorem Level.parser_eq (level : Level) (stop levels : Nat) :
    (Phrase.joined level).parser stop levels =
      Expr.joined (level.operand.parser stop levels) level.joint := by
  cases level <;> rfl

section Tables

variable {token : Token} {name : String}

theorem Level.joint_eq_some_iff {level : Level} {join : Expr → Expr → Expr} :
    level.joint token = some join ↔ (token, join) ∈ level.joints := by
  cases level <;> simp only [joint, orJoint, andJoint, sumJoint, productJoint] <;>
    split <;> simp_all [joints, eq_comm]

theorem compareJoint_eq_some_iff {join : Expr → Expr → Expr} :
    compareJoint token = some join ↔
      ∃ operator, (token, operator) ∈ comparisons ∧ join = .binary operator := by
  unfold compareJoint
  split <;> simp_all [comparisons, eq_comm]

theorem opensNot_iff_mem : opensNot token ↔ (token, Expr.not) ∈ Phrase.not.prefixes := by
  unfold opensNot
  split <;> simp_all [Phrase.prefixes]

theorem opensNot_iff : opensNot token ↔ token ∈ Phrase.not.prefixes.map (·.1) := by
  unfold opensNot
  split <;> simp_all [Phrase.prefixes]

theorem Root.ofName_eq_literal_iff {value : Json} :
    Root.ofName name = .literal value ↔ (name, value) ∈ constants := by
  unfold ofName constants
  grind

theorem Root.ofName_of_payload (listed : name ∈ payloadNames) : Root.ofName name = .path [] := by
  simp only [payloadNames, List.mem_cons, List.not_mem_nil, or_false] at listed
  rcases listed with rfl | rfl <;> rfl

theorem Root.ofName_of_field (constant : name ∉ constants.map (·.1)) (other : name ∉ payloadNames) :
    Root.ofName name = .path [.field name] := by
  simp only [constants, payloadNames, List.map_cons, List.map_nil, List.mem_cons,
    List.not_mem_nil, or_false, not_or] at constant other
  simp [ofName, constant, other]

theorem Root.ofName_eq_path_iff {start : List Segment} :
    Root.ofName name = .path start ↔ Rooted name start := by
  constructor
  · intro rooted
    have constant : name ∉ constants.map (·.1) := by
      rintro listed
      obtain ⟨⟨_, value⟩, inside, rfl⟩ := List.mem_map.mp listed
      rw [ofName_eq_literal_iff.mpr inside] at rooted
      contradiction
    by_cases payload : name ∈ payloadNames
    · rw [ofName_of_payload payload] at rooted
      cases rooted
      exact .payload payload
    · rw [ofName_of_field constant payload] at rooted
      cases rooted
      exact .field constant payload
  · intro rooted
    cases rooted with
    | payload listed => exact ofName_of_payload listed
    | field constant other => exact ofName_of_field constant other

theorem Rooted.unique {start other : List Segment} (rooted : Rooted name start)
    (again : Rooted name other) : start = other :=
  Root.path.inj ((Root.ofName_eq_path_iff.mpr rooted).symm.trans
    (Root.ofName_eq_path_iff.mpr again))

theorem index?_eq_some_iff {number : Float} {position : Nat} :
    index? number = some position ↔ Indexes number position := by
  unfold index?
  constructor
  · intro read
    split at read
    · rename_i value whole
      split at read
      · rename_i positive
        cases read
        exact .whole whole positive
      · contradiction
    · contradiction
  · rintro ⟨whole, positive⟩
    simp [whole, positive]

end Tables

section Soundness

variable {stop levels limit : Nat} {placed rest : List Placed} {expr : Expr}

/-- The tokens before `rest` derive the expression, and nest less than `limit` deep. -/
def Reads (limit : Nat) (phrase : Phrase) (placed : List Placed) (expr : Expr)
    (rest : List Placed) : Prop :=
  ∃ front, placed = front ++ rest ∧ ∃ derivation : Derivation phrase (front.map (·.token)),
    derivation.nesting < limit ∧ derivation.expr = expr

def ReadsMore (limit : Nat) (level : Level) (left : Expr) (placed : List Placed) (expr : Expr)
    (rest : List Placed) : Prop :=
  ∃ front, placed = front ++ rest ∧ ∃ more : More level (front.map (·.token)),
    more.nesting < limit ∧ more.onto left = expr

def SoundFor (parser : Parser Expr) (limit : Nat) (phrase : Phrase) : Prop :=
  ∀ ⦃placed expr rest⦄, parser placed = .ok (expr, rest) → Reads limit phrase placed expr rest

theorem Reads.joined {level : Level} {left : Expr} {middle : List Placed}
    (first : Reads limit level.operand placed left middle)
    (more : ReadsMore limit level left middle expr rest) :
    Reads limit (.joined level) placed expr rest := by
  obtain ⟨front, rfl, operand, shallow, rfl⟩ := first
  obtain ⟨back, rfl, more, flat, rfl⟩ := more
  have split : (front ++ back).map (·.token) = front.map (·.token) ++ back.map (·.token) :=
    List.map_append
  exact ⟨front ++ back, by simp, .joined level split operand more,
    Nat.max_lt.mpr ⟨shallow, flat⟩, rfl⟩

theorem ReadsMore.joint {level : Level} {left right : Expr} {next : Placed}
    {middle : List Placed} {join : Expr → Expr → Expr} (listed : (next.token, join) ∈ level.joints)
    (operand : Reads limit level.operand placed right middle)
    (more : ReadsMore limit level (join left right) middle expr rest) :
    ReadsMore limit level left (next :: placed) expr rest := by
  obtain ⟨front, rfl, operand, shallow, rfl⟩ := operand
  obtain ⟨back, rfl, more, flat, rfl⟩ := more
  have split : (next :: front ++ back).map (·.token) =
      next.token :: front.map (·.token) ++ back.map (·.token) := List.map_append
  exact ⟨next :: front ++ back, by simp, .joint level next.token join listed split operand more,
    Nat.max_lt.mpr ⟨shallow, flat⟩, rfl⟩

theorem Reads.prefixed {phrase : Phrase} {next : Placed} {operator : Expr → Expr}
    (listed : (next.token, operator) ∈ phrase.prefixes)
    (operand : Reads limit phrase placed expr rest) :
    Reads (limit + 1) phrase (next :: placed) (operator expr) rest := by
  obtain ⟨front, rfl, operand, shallow, rfl⟩ := operand
  exact ⟨next :: front, rfl, .prefixed phrase next.token operator listed operand,
    Nat.succ_lt_succ shallow, rfl⟩

theorem prefixed_sound {phrase : Phrase} {operator : Expr → Expr} {parser : Parser Expr}
    {next : Placed} (sound : SoundFor parser levels phrase)
    (listed : (next.token, operator) ∈ phrase.prefixes)
    (read : Expr.prefixed operator parser placed = .ok (expr, rest)) :
    Reads (levels + 1) phrase (next :: placed) expr rest := by
  unfold Expr.prefixed at read
  cases inner : parser placed with
  | error malformed =>
      rw [inner] at read
      contradiction
  | ok result =>
      rw [inner] at read
      cases read
      exact (sound inner).prefixed listed

theorem joinMore_sound {level : Level} {parser : Parser Expr}
    (sound : SoundFor parser (levels + 1) level.operand) {fuel : Nat} {left : Expr}
    (read : joinMore parser level.joint fuel left placed = .ok (expr, rest)) :
    ReadsMore (levels + 1) level left placed expr rest := by
  have stopped (left : Expr) (placed : List Placed) :
      ReadsMore (levels + 1) level left placed left placed :=
    ⟨[], rfl, .done level, Nat.zero_lt_succ _, rfl⟩
  induction fuel generalizing left placed with
  | zero =>
      cases read
      exact stopped _ _
  | succ fuel ih =>
      cases placed with
      | nil =>
          cases read
          exact stopped _ _
      | cons next later =>
          rw [joinMore] at read
          cases joins : level.joint next.token with
          | none =>
              rw [joins] at read
              cases read
              exact stopped _ _
          | some join =>
              rw [joins] at read
              dsimp only at read
              cases operand : parser later with
              | error malformed =>
                  rw [operand] at read
                  contradiction
              | ok result =>
                  rw [operand] at read
                  exact .joint (Level.joint_eq_some_iff.mp joins) (sound operand) (ih read)

theorem joined_sound {level : Level} {parser : Parser Expr}
    (sound : SoundFor parser (levels + 1) level.operand) :
    SoundFor (Expr.joined parser level.joint) (levels + 1) (.joined level) := by
  intro placed expr rest read
  unfold Expr.joined at read
  cases operand : parser placed with
  | error malformed =>
      rw [operand] at read
      contradiction
  | ok result =>
      rw [operand] at read
      exact (sound operand).joined (joinMore_sound sound read)

theorem Steps.of_bracketed {token : Token} {segment : Segment} {tokens : List Token}
    (bracketed : bracketed? token = some segment) (later : Steps tokens) :
    ∃ steps : Steps (.openBracket :: token :: .closeBracket :: tokens),
      steps.segments = segment :: later.segments := by
  cases token with
  | text name =>
      cases bracketed
      exact ⟨.text name later, rfl⟩
  | number number =>
      obtain ⟨position, read, rfl⟩ := Option.map_eq_some_iff.mp bracketed
      exact ⟨.index number position (index?_eq_some_iff.mp read) later, rfl⟩
  | _ => contradiction

theorem refuse_ne_ok {α : Type} {fault : Option Token → Fault} {result : α × List Placed} :
    refuse stop fault placed ≠ .ok result := by
  cases placed <;> exact nofun

theorem steps_sound {segments : List Segment} (read : steps stop placed = .ok (segments, rest)) :
    ∃ front, placed = front ++ rest ∧
      ∃ steps : Steps (front.map (·.token)), steps.segments = segments := by
  fun_induction steps stop placed generalizing segments rest with
  | case1 before behind field later segments after found ih =>
      cases read
      obtain ⟨front, rfl, steps, rfl⟩ := ih found
      exact ⟨⟨before, .dot⟩ :: ⟨behind, .name field⟩ :: front, rfl, .field field steps, rfl⟩
  | case5 before key segment bracketed behind later segments after found ih =>
      cases read
      obtain ⟨front, rfl, steps, rfl⟩ := ih found
      obtain ⟨wider, same⟩ := Steps.of_bracketed bracketed steps
      exact ⟨⟨before, .openBracket⟩ :: key :: ⟨behind, .closeBracket⟩ :: front, rfl, wider, same⟩
  | case9 =>
      cases read
      exact ⟨[], rfl, .done, rfl⟩
  | case2 | case6 => contradiction
  | _ => exact absurd read refuse_ne_ok

/-- Parsers that read what nests less than `limit` deep. -/
structure Deeper.Sound (deeper : Deeper) (limit : Nat) : Prop where
  or : SoundFor deeper.or limit (.joined .or)
  not : SoundFor deeper.not limit .not
  unary : SoundFor deeper.unary limit .unary

theorem primary_sound {deeper : Deeper} (sound : deeper.Sound levels) :
    SoundFor (Expr.primary stop deeper) (levels + 1) .primary := by
  intro placed expr rest read
  cases placed with
  | nil => contradiction
  | cons next later =>
      obtain ⟨offset, token⟩ := next
      cases token with
      | number value =>
          cases read
          exact ⟨[⟨offset, .number value⟩], rfl, .number value, Nat.zero_lt_succ _, rfl⟩
      | text value =>
          cases read
          exact ⟨[⟨offset, .text value⟩], rfl, .text value, Nat.zero_lt_succ _, rfl⟩
      | name name =>
          simp only [Expr.primary] at read
          cases root : Root.ofName name with
          | literal value =>
              rw [root] at read
              cases read
              exact ⟨[⟨offset, .name name⟩], rfl,
                .constant name value (Root.ofName_eq_literal_iff.mp root), Nat.zero_lt_succ _, rfl⟩
          | path start =>
              rw [root] at read
              dsimp only at read
              cases found : steps stop later with
              | error malformed =>
                  rw [found] at read
                  contradiction
              | ok result =>
                  rw [found] at read
                  cases read
                  obtain ⟨front, rfl, steps, segments⟩ := steps_sound found
                  exact ⟨⟨offset, .name name⟩ :: front, rfl,
                    .path name start (Root.ofName_eq_path_iff.mp root) steps, Nat.zero_lt_succ _,
                    by rw [Derivation.expr, segments]⟩
      | openParen =>
          simp only [Expr.primary] at read
          split at read
          · rename_i inner behind after found
            cases read
            obtain ⟨front, rfl, derivation, shallow, rfl⟩ := sound.or found
            let group : List Placed := ⟨offset, .openParen⟩ :: front ++ [⟨behind, .closeParen⟩]
            have split : group.map (·.token) = .openParen :: front.map (·.token) ++ [.closeParen] :=
              List.map_append
            exact ⟨group, by simp [group], .parens split derivation, Nat.succ_lt_succ shallow, rfl⟩
          · exact absurd read refuse_ne_ok
          · contradiction
      | _ => contradiction

theorem unary_sound {deeper : Deeper} (sound : deeper.Sound levels) :
    SoundFor (Expr.unary stop deeper) (levels + 1) .unary := by
  intro placed expr rest read
  unfold Expr.unary at read
  split at read
  · exact prefixed_sound sound.unary (by simp [Phrase.prefixes]) read
  · exact prefixed_sound sound.unary (by simp [Phrase.prefixes]) read
  · obtain ⟨front, rfl, derivation, shallow, rfl⟩ := primary_sound sound read
    exact ⟨front, rfl, .primary derivation, shallow, rfl⟩

theorem compare_sound {deeper : Deeper}
    (sound : SoundFor (Expr.sum stop deeper) limit (.joined .sum)) :
    SoundFor (Expr.compare stop deeper) limit .compare := by
  intro placed expr rest read
  unfold Expr.compare at read
  split at read
  · contradiction
  · rename_i left found
    cases read
    obtain ⟨front, rfl, derivation, shallow, rfl⟩ := sound found
    exact ⟨front, rfl, .single derivation, shallow, rfl⟩
  · rename_i left next later found
    obtain ⟨front, rfl, first, shallow, rfl⟩ := sound found
    split at read
    · cases read
      exact ⟨front, rfl, .single first, shallow, rfl⟩
    · rename_i join joins
      obtain ⟨operator, listed, rfl⟩ := compareJoint_eq_some_iff.mp joins
      unfold Expr.prefixed at read
      cases right : Expr.sum stop deeper later with
      | error malformed =>
          rw [right] at read
          contradiction
      | ok result =>
          rw [right] at read
          cases read
          obtain ⟨back, rfl, last, flat, same⟩ := sound right
          have split : (front ++ next :: back).map (·.token) =
              front.map (·.token) ++ next.token :: back.map (·.token) := List.map_append
          exact ⟨front ++ next :: back, by simp,
            .compare next.token operator listed split first last,
            Nat.max_lt.mpr ⟨shallow, flat⟩, by rw [Derivation.expr, same]⟩

theorem Reads.bare (closed : ∀ next ∈ placed.head?, ¬ opensNot next.token)
    (read : Reads limit .compare placed expr rest) : Reads limit .not placed expr rest := by
  obtain ⟨front, rfl, derivation, shallow, rfl⟩ := read
  have bare : ∀ token ∈ (front.map (·.token)).head?, token ∉ Phrase.not.prefixes.map (·.1) := by
    intro token head
    cases front with
    | nil => contradiction
    | cons next front =>
        obtain rfl := Option.some.inj head
        rw [← opensNot_iff]
        exact closed next rfl
  exact ⟨front, rfl, .bare bare derivation, shallow, rfl⟩

theorem notPhrase_sound {deeper : Deeper} (sound : deeper.Sound levels)
    (compare : SoundFor (Expr.compare stop deeper) (levels + 1) .compare) :
    SoundFor (notPhrase stop deeper) (levels + 1) .not := by
  intro placed expr rest read
  cases placed with
  | nil => exact .bare nofun (compare read)
  | cons next later =>
      rw [notPhrase] at read
      split at read
      · rename_i opens
        exact prefixed_sound sound.not (opensNot_iff_mem.mp opens) read
      · rename_i closed
        exact .bare (fun head same => Option.some.inj same ▸ closed) (compare read)

theorem parser_sound (deeper : (Expr.deeper stop levels).Sound levels) (phrase : Phrase) :
    SoundFor (phrase.parser stop levels) (levels + 1) phrase := by
  have unary : SoundFor (Phrase.unary.parser stop levels) (levels + 1) .unary := unary_sound deeper
  have joined (level : Level)
      (operand : SoundFor (level.operand.parser stop levels) (levels + 1) level.operand) :
      SoundFor ((Phrase.joined level).parser stop levels) (levels + 1) (.joined level) := by
    rw [level.parser_eq]
    exact joined_sound operand
  have product := joined .product unary
  have sum := joined .sum product
  have compare := compare_sound sum
  have not := notPhrase_sound deeper compare
  have and := joined .and not
  cases phrase with
  | joined level =>
      cases level with
      | or => exact joined .or and
      | and => exact and
      | sum => exact sum
      | product => exact product
  | not => exact not
  | compare => exact compare
  | unary => exact unary
  | primary => exact primary_sound deeper

theorem deeper_sound (stop levels : Nat) : (deeper stop levels).Sound levels := by
  induction levels with
  | zero => exact ⟨nofun, nofun, nofun⟩
  | succ levels ih =>
      exact ⟨parser_sound ih (.joined .or), parser_sound ih .not, parser_sound ih .unary⟩

end Soundness

end Workflow.Expr
