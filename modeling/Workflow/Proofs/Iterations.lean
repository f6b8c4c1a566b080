import Mathlib.Order.Bounds.Defs
import Mathlib.Tactic.Choose
import Workflow.Proofs.Likeness

/-! The iterations of a while-loop.

The payload of a while-loop changes from round to round: its body adds to it, and so does the
loop with its own counter.  The condition is asked of the payload as it is by then, so how
often the body runs depends on what it answers.  Here a record is kept of the calls of the
body, whatever computes them; `payloadAt` says from the record alone what the payload is in
front of each round, and `Branching.evaluate_iterates` that the rounds are the ones up to the
first at which the loop has to stop.
-/

namespace Workflow

/-- A call of the body of a loop, and what its targets gave. -/
structure BodyCall where
  round : Nat
  port : String
  payload : Json
  outputs : List (Option Json)

variable {m : Type → Type} [Monad m]

/-- Whatever the computation gives has the property. -/
def Gives {α : Type} (holds : α → Prop) (computation : m α) : Prop :=
  ∃ given : m {value // holds value}, Subtype.val <$> given = computation

namespace Gives

variable [LawfulMonad m] {α β : Type} {before : α → Prop} {holds : β → Prop}

theorem pure {value : β} (known : holds value) : Gives holds (Pure.pure value : m β) :=
  ⟨Pure.pure ⟨value, known⟩, map_pure _ _⟩

theorem trivial (computation : m β) : Gives (fun _ => True) computation :=
  ⟨(fun value => ⟨value, True.intro⟩) <$> computation, by simp⟩

theorem bind {first : m α} {next : α → m β} (earlier : Gives before first)
    (later : ∀ value, before value → Gives holds (next value)) : Gives holds (first >>= next) := by
  obtain ⟨given, rfl⟩ := earlier
  choose goesOn same using fun value : {value // before value} => later value.1 value.2
  exact ⟨given >>= goesOn, by simp [same]⟩

theorem imp {computation : m β} {more : β → Prop} (given : Gives holds computation)
    (implies : ∀ value, holds value → more value) : Gives more computation := by
  rw [← bind_pure computation]
  exact given.bind fun value known => pure (implies value known)

end Gives

namespace Surroundings

/-- The same surroundings, with a record of the calls of the body. -/
def recorded (surroundings : Surroundings m) : Surroundings (StateT (List BodyCall) m) where
  body round port payload := do
    let outputs ← surroundings.body round port payload
    modify (· ++ [⟨round, port, payload, outputs⟩])
    return outputs
  warn message := surroundings.warn message

variable [LawfulMonad m] (surroundings : Surroundings m)

@[simp] theorem recorded_body_run (round : Nat) (port : String) (payload : Json)
    (calls : List BodyCall) :
    (surroundings.recorded.body round port payload).run calls = do
      let outputs ← surroundings.body round port payload
      return (outputs, calls ++ [⟨round, port, payload, outputs⟩]) := by
  simp [recorded]

@[simp] theorem recorded_warn_run (message : String) (calls : List BodyCall) :
    (surroundings.recorded.warn message).run calls = do
      surroundings.warn message
      return ((), calls) := by
  simp [recorded]

/-- What is left of a recorded computation once its record is dropped. -/
def unrecorded : Likeness (StateT (List BodyCall) m) m where
  like left right := ∀ calls, Prod.fst <$> left.run calls = right
  pure value calls := by simp
  bind first next calls := by
    simp only [StateT.run_bind, map_bind, next, ← first calls, bind_map_left]
  map f same calls := by simp [← same calls]

theorem recorded_surrounded : unrecorded.Surrounded surroundings.recorded surroundings where
  body round port payload calls := by simp
  warn message calls := by simp

end Surroundings

namespace Branching

/-- The objects among the outputs of a round on top of its payload, one after another. -/
def gathered (start : Json) (outputs : List (Option Json)) : Json :=
  (outputs.filterMap fun output => output.bind Json.object?).foldl spread start

theorem accumulate_eq_gathered (start : Json) (outputs : List (Option Json)) :
    accumulate start outputs = gathered start outputs := by
  unfold accumulate gathered
  induction outputs generalizing start with
  | nil => rfl
  | cons output rest ih =>
      rcases output with _ | (_ | _ | _ | _ | _ | _) <;> exact ih _

/-- What a while-loop has made of its input in front of a round, given the calls of its
body. -/
def payloadAt (input : Json) (calls : List BodyCall) : Nat → Json
  | 0 => input
  | round + 1 =>
      gathered (roundPayload (payloadAt input calls round) round)
        ((calls[round]?.map BodyCall.outputs).getD [])

/-- The payload in front of a round depends on earlier calls only. -/
theorem payloadAt_append {input : Json} {calls more : List BodyCall} {round : Nat}
    (within : round ≤ calls.length) :
    payloadAt input (calls ++ more) round = payloadAt input calls round := by
  induction round with
  | zero => rfl
  | succ round ih =>
      rw [payloadAt, payloadAt, ih (by omega), List.getElem?_append_left (by omega)]

/-- Each call is of the next round, with the payload of that round. -/
def Called (input : Json) (calls : List BodyCall) : Prop :=
  ∀ round call, calls[round]? = some call →
    call.round = round ∧ call.port = "loop" ∧
      call.payload = roundPayload (payloadAt input calls round) round

/-- A while-loop on its way: so far the condition has held and the cap was not reached. -/
structure Underway (condition : String) (cap : Nat) (input : Json) (calls : List BodyCall) :
    Prop where
  within : calls.length ≤ cap
  holds : ∀ round < calls.length, Expr.holds condition (payloadAt input calls round) = .ok true
  called : Called input calls

/-- A while-loop at its end: its rounds are those in front of the first one that the cap
rules out or that the condition does not hold of. -/
structure Iterated (condition : String) (cap : Nat) (input : Json) (calls : List BodyCall) :
    Prop where
  count : IsLeast
    {round | round < cap → Expr.holds condition (payloadAt input calls round) ≠ .ok true}
    calls.length
  called : Called input calls

namespace Underway

variable {condition : String} {cap : Nat} {input payload : Json} {calls : List BodyCall}

theorem start : Underway condition cap input [] :=
  ⟨Nat.zero_le _, nofun, nofun⟩

/-- One more call, where the condition holds and the cap allows it. -/
theorem again (underway : Underway condition cap input calls)
    (now : payloadAt input calls calls.length = payload) (room : calls.length < cap)
    (holds : Expr.holds condition payload = .ok true) (outputs : List (Option Json)) :
    Underway condition cap input
      (calls ++ [⟨calls.length, "loop", roundPayload payload calls.length, outputs⟩]) where
  within := by
    rw [List.length_append, List.length_singleton]
    exact room
  holds round earlier := by
    rw [List.length_append, List.length_singleton] at earlier
    rw [payloadAt_append (by omega)]
    rcases Nat.lt_or_eq_of_le (Nat.le_of_lt_succ earlier) with earlier | rfl
    · exact underway.holds round earlier
    · rwa [now]
  called round call found := by
    rcases Nat.lt_trichotomy round calls.length with earlier | rfl | later
    · rw [List.getElem?_append_left earlier] at found
      rw [payloadAt_append (by omega)]
      exact underway.called round call found
    · rw [List.getElem?_concat_length, Option.some.injEq] at found
      subst found
      rw [payloadAt_append (Nat.le_refl _), now]
      exact ⟨rfl, rfl, rfl⟩
    · rw [List.getElem?_eq_none (by simp; omega)] at found
      contradiction

/-- Where the loop cannot go on, its calls are all it makes. -/
theorem iterated (underway : Underway condition cap input calls)
    (stops : calls.length < cap →
      Expr.holds condition (payloadAt input calls calls.length) ≠ .ok true) :
    Iterated condition cap input calls where
  count := by
    refine ⟨stops, fun round stopsThere => Nat.le_of_not_lt fun earlier => ?_⟩
    exact stopsThere (Nat.lt_of_lt_of_le earlier underway.within) (underway.holds round earlier)
  called := underway.called

end Underway

/-- What the payload is after one more call. -/
theorem payloadAt_again {input payload : Json} {calls : List BodyCall}
    (now : payloadAt input calls calls.length = payload) (start : Json)
    (outputs : List (Option Json)) :
    payloadAt input (calls ++ [⟨calls.length, "loop", start, outputs⟩]) (calls.length + 1) =
      accumulate (roundPayload payload calls.length) outputs := by
  rw [payloadAt, payloadAt_append (Nat.le_refl _), now, List.getElem?_concat_length,
    accumulate_eq_gathered]
  rfl

variable [LawfulMonad m] (surroundings : Surroundings m)

/-- Asking for a condition makes no call. -/
theorem holds_gives (condition : String) (payload : Json) (calls : List BodyCall) :
    Gives (fun (again, made) => made = calls ∧ (again ↔ Expr.holds condition payload = .ok true))
      ((holds surroundings.recorded condition payload).run calls) := by
  unfold holds
  cases Expr.holds condition payload with
  | ok result => exact .pure ⟨rfl, by simp⟩
  | error failure =>
      simp only [StateT.run_bind, Surroundings.recorded_warn_run, bind_assoc, pure_bind]
      exact (Gives.trivial _).bind fun _ _ => .pure ⟨rfl, by simp⟩

/-- The loop makes its calls one by one, until it has to stop. -/
theorem repeatWhile_gives {condition : String} {cap left : Nat} {input payload : Json}
    {calls : List BodyCall} (underway : Underway condition cap input calls)
    (now : payloadAt input calls calls.length = payload) (room : calls.length + left = cap) :
    Gives
      (fun ((final, rounds), made) =>
        Iterated condition cap input made ∧ final = payloadAt input made made.length ∧
          rounds = made.length)
      ((repeatWhile surroundings.recorded condition left calls.length payload).run calls) := by
  induction left generalizing payload calls with
  | zero => exact .pure ⟨underway.iterated (by omega), now.symm, rfl⟩
  | succ left ih =>
      unfold repeatWhile
      rw [StateT.run_bind]
      refine (holds_gives surroundings condition payload calls).bind ?_
      rintro ⟨again, made⟩ ⟨same, decides⟩
      subst made
      cases again with
      | false =>
          have stops : Expr.holds condition payload ≠ .ok true := by simpa using decides
          exact .pure ⟨underway.iterated fun _ => now ▸ stops, now.symm, rfl⟩
      | true =>
          simp only [↓reduceIte, StateT.run_bind, Surroundings.recorded_body_run, bind_assoc,
            pure_bind]
          refine (Gives.trivial _).bind fun outputs _ => ?_
          have next := underway.again now (by omega) (decides.mp rfl) outputs
          have goesOn := payloadAt_again now (roundPayload payload calls.length) outputs
          simpa only [List.length_append, List.length_singleton] using
            ih next (by simpa using goesOn) (by simp; omega)

/-- The most iterations that a while-loop may take: the number it is configured with, or the
default if it is configured with nothing. -/
def Capped (node : Node) (default cap : Nat) : Prop :=
  let configured := Fields.get? node.config "maxIterations"
  (configured = none ∨ configured = some .null) ∧ cap = default ∨ configured = some (.nat cap)

theorem natural?_eq_some_iff {value : Json} {number : Nat} :
    value.natural? = some number ↔ value = .nat number := by
  constructor
  · intro found
    rcases value with _ | _ | (whole | _) | _ | _ | _ <;> try contradiction
    simp only [Json.natural?, Number.natural?] at found
    split at found
    · rw [← Option.some.inj found, Json.nat, Json.int, Int.toNat_of_nonneg ‹_›]
    · contradiction
  · rintro rfl
    simp [Json.nat, Json.int, Json.natural?, Number.natural?]

theorem iterationCap_eq_ok_iff {node : Node} {default cap : Nat} :
    iterationCap node default = .ok cap ↔ Capped node default cap := by
  unfold iterationCap Capped
  split
  next absent => simp [absent, eq_comm]
  next null => simp [null, Json.nat, Json.int, eq_comm]
  next value present configured =>
    have given : value ≠ .null := present
    simp only [configured, reduceCtorEq, Option.some.injEq, given, or_self, false_and, false_or,
      ← natural?_eq_some_iff]
    cases value.natural? <;> simp

/-- A cap is refused only for what it is configured as. -/
theorem iterationCap_eq_error {node : Node} {default : Nat}
    (uncapped : ∀ cap, ¬ Capped node default cap) :
    ∃ value, Fields.get? node.config "maxIterations" = some value ∧
      iterationCap node default = .error (.badIterationCap value) := by
  cases result : iterationCap node default with
  | ok cap => exact absurd (iterationCap_eq_ok_iff.mp result) (uncapped cap)
  | error error =>
      unfold iterationCap at result
      split at result
      · contradiction
      · contradiction
      next value _ found =>
        split at result
        · contradiction
        · exact ⟨value, found, result.symm⟩

/-- The payload that a while-loop ends with. -/
def exitPayload (input : Json) (calls : List BodyCall) : Json :=
  spread (payloadAt input calls calls.length) [("iterations", .nat calls.length)]

theorem whileLoop_gives {node : Node} {default cap : Nat} (capped : Capped node default cap)
    (input : Json) :
    Gives
      (fun (result, calls) =>
        Iterated ((node.configText? "condition").getD "false") cap input calls ∧
          result = .ok (.single "exit" (exitPayload input calls)))
      ((whileLoop surroundings.recorded node input default).run []) := by
  unfold whileLoop
  rw [iterationCap_eq_ok_iff.mpr capped]
  dsimp only
  rw [StateT.run_bind]
  have start : Underway ((node.configText? "condition").getD "false") cap input [] := .start
  refine (repeatWhile_gives surroundings start rfl (Nat.zero_add cap)).bind ?_
  rintro ⟨⟨payload, rounds⟩, calls⟩ ⟨iterated, rfl, rfl⟩
  dsimp only
  split
  · simp only [StateT.run_bind, Surroundings.recorded_warn_run, bind_assoc, pure_bind]
    exact (Gives.trivial _).bind fun _ _ => .pure ⟨iterated, rfl⟩
  · exact .pure ⟨iterated, rfl⟩

omit [LawfulMonad m] in
theorem evaluate_while {node : Node} (repeats : node.templateId = whileTemplate) (default : Nat)
    (input : Json) :
    evaluate surroundings default node input = whileLoop surroundings node input default := by
  rw [evaluate, repeats, if_neg (by decide), if_neg (by decide), if_neg (by decide), if_pos rfl]

end Branching

/-- A while-loop that goes on until there have been three rounds. -/
def untilThird : Node :=
  { id := "w", templateId := whileTemplate, kind := .condition, title := "w",
    config := [("condition", .string "data.n != 3")], position := .origin, inputs := [],
    outputs := [⟨"l", "loop", .output, anyType, false⟩, ⟨"e", "exit", .output, anyType, false⟩],
    status := .idle }

/-- A body with one target that fails, one that counts and one that gives no object. -/
def countingBody : Surroundings Id where
  body round _ _ := [none, some (.object [("n", .nat (round + 1))]), some (.string "done")]
  warn _ := ()

example :
    (((Branching.evaluate countingBody.recorded 8 untilThird .empty).run []).2.map fun call =>
      ((call.payload.field? "n").getD .null).render) = ["null", "1", "2"] := by
  decide +kernel

end Workflow
