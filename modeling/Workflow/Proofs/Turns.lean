import Mathlib.Data.List.Forall2
import Workflow.Proofs.Courses
import Workflow.Resumption

/-! Activities take courses, whatever happens to the state between their turns.

A `Conduct` says what a turn may do to the state and which deeds it counts as.
`Resumption.Takes` says of an activity that every turn keeps to a conduct, from
every state in which it may find itself, and that its deeds and its result make
one of the given courses.  Activities side by side then take the courses of both,
mixed.
-/

namespace Workflow

/-- What activities may do to a state, and as which deeds it counts. -/
structure Conduct (σ ε : Type) where
  may : σ → List ε → σ → Prop
  nothing : ∀ state, may state [] state
  andThen : ∀ {before middle after first second},
    may before first middle → may middle second after → may before (first ++ second) after

namespace Resumption

variable {σ ε α β γ κ ι ο : Type}

/-- An activity is done, or whatever state it goes on from, what remains of it
comes nearer to being done. -/
theorem byTurns {motive : Resumption σ α → Prop} (done : ∀ value, motive (.done value))
    (paused : ∀ rest, (∀ state, motive (rest state).2) → motive (.paused rest))
    (asleep : ∀ wake rest, (∀ state, motive (rest state).2) → motive (.asleep wake rest))
    (resumption : Resumption σ α) : motive resumption :=
  @Resumption.rec σ α motive (fun turn => motive turn.2)
    done paused asleep (fun _ _ known => known) resumption

@[simp] theorem bindTurn_eq (turn : σ × Resumption σ α) (next : α → Activity σ β) :
    bindTurn turn next = turn.2.bind next turn.1 := by
  cases turn
  rfl

@[simp] theorem mapTurn_eq (f : α → β) (turn : σ × Resumption σ α) :
    mapTurn f turn = (turn.1, turn.2.map f) := by
  cases turn
  rfl

@[simp] theorem besideTurn_eq (f : α → β → γ) (turn : σ × Resumption σ α) :
    besideTurn f turn = (turn.1, fun right => turn.2.beside f right) := by
  cases turn
  rfl

@[simp] theorem besideAsleepTurn_eq (wake : Nat) (left : LeftTurn σ β γ)
    (turn : σ × Resumption σ β) :
    besideAsleepTurn wake left turn = (turn.1, besideAsleep wake left turn.2) := by
  cases turn
  rfl

@[simp] theorem withinTurn_eq (outer : ο) (turn : (κ × ι) × Resumption (κ × ι) α) :
    withinTurn outer turn = ((turn.1.1, outer), turn.2.within turn.1.2) := by
  obtain ⟨⟨_, _⟩, _⟩ := turn
  rfl

@[simp] theorem finishTurn_eq (advance : Nat → σ → σ) (turn : σ × Resumption σ α) :
    finishTurn advance turn = turn.2.finish advance turn.1 := by
  cases turn
  rfl

mutual

/-- What remains takes one of the courses, keeping to the conduct. -/
def Takes (conduct : Conduct σ ε) : Resumption σ α → Courses ε α → Prop
  | .done value, courses => courses [] value
  | .paused rest, courses => ∀ state, TakesTurn conduct state (rest state) courses
  | .asleep _ rest, courses => ∀ state, TakesTurn conduct state (rest state) courses

/-- A turn does the first deeds of a course, and what remains does the others. -/
def TakesTurn (conduct : Conduct σ ε) (before : σ) :
    σ × Resumption σ α → Courses ε α → Prop
  | (after, rest), courses =>
      ∃ deeds, conduct.may before deeds after ∧ Takes conduct rest (courses.after deeds)

end

variable {conduct : Conduct σ ε} {courses larger : Courses ε α}

@[simp] theorem takes_paused (rest : σ → σ × Resumption σ α) :
    Takes conduct (.paused rest) courses ↔
      ∀ state, TakesTurn conduct state (rest state) courses :=
  Iff.rfl

@[simp] theorem takes_asleep (wake : Nat) (rest : σ → σ × Resumption σ α) :
    Takes conduct (.asleep wake rest) courses ↔
      ∀ state, TakesTurn conduct state (rest state) courses :=
  Iff.rfl

theorem takesTurn_iff {before : σ} {turn : σ × Resumption σ α} :
    TakesTurn conduct before turn courses ↔
      ∃ deeds, conduct.may before deeds turn.1 ∧
        Takes conduct turn.2 (courses.after deeds) := by
  cases turn
  rfl

/-- Courses may be added, and the conduct may allow more. -/
theorem Takes.weaken {stricter conduct : Conduct σ ε}
    (allowed : ∀ {before deeds after}, stricter.may before deeds after →
      conduct.may before deeds after)
    {resumption : Resumption σ α} (takes : Takes stricter resumption courses)
    (included : ∀ {deeds value}, courses deeds value → larger deeds value) :
    Takes conduct resumption larger := by
  have turn {rest : σ → σ × Resumption σ α}
      (ih : ∀ state {courses larger : Courses ε α}, Takes stricter (rest state).2 courses →
        (∀ {deeds value}, courses deeds value → larger deeds value) →
          Takes conduct (rest state).2 larger)
      {courses larger : Courses ε α}
      (takes : ∀ state, TakesTurn stricter state (rest state) courses)
      (included : ∀ {deeds value}, courses deeds value → larger deeds value) (state : σ) :
      TakesTurn conduct state (rest state) larger := by
    obtain ⟨deeds, done, goesOn⟩ := takesTurn_iff.mp (takes state)
    exact takesTurn_iff.mpr ⟨deeds, allowed done, ih state goesOn included⟩
  induction resumption using byTurns generalizing courses larger with
  | done value => exact included takes
  | paused rest ih => exact turn ih takes included
  | asleep wake rest ih => exact turn ih takes included

theorem Takes.mono {resumption : Resumption σ α} (takes : Takes conduct resumption courses)
    (included : ∀ {deeds value}, courses deeds value → larger deeds value) :
    Takes conduct resumption larger :=
  takes.weaken id included

theorem TakesTurn.weaken {stricter conduct : Conduct σ ε}
    (allowed : ∀ {before deeds after}, stricter.may before deeds after →
      conduct.may before deeds after)
    {before : σ} {turn : σ × Resumption σ α} (takes : TakesTurn stricter before turn courses)
    (included : ∀ {deeds value}, courses deeds value → larger deeds value) :
    TakesTurn conduct before turn larger := by
  obtain ⟨deeds, done, goesOn⟩ := takesTurn_iff.mp takes
  exact takesTurn_iff.mpr ⟨deeds, allowed done, goesOn.weaken allowed included⟩

/-- Deeds done earlier in a turn are the first ones of its course. -/
theorem TakesTurn.precede {before middle : σ} {first : List ε} {turn : σ × Resumption σ α}
    (done : conduct.may before first middle)
    (takes : TakesTurn conduct middle turn (courses.after first)) :
    TakesTurn conduct before turn courses := by
  obtain ⟨second, goesOn, rest⟩ := takesTurn_iff.mp takes
  refine takesTurn_iff.mpr ⟨first ++ second, conduct.andThen done goesOn, ?_⟩
  rwa [← Courses.after_after]

/-- Going on takes the courses of the first activity followed by those of the
next, which starts from a result that the first may have. -/
theorem Takes.bind {resumption : Resumption σ α} {next : α → Activity σ β}
    {nextCourses : α → Courses ε β} (takes : Takes conduct resumption courses)
    (goesOn : ∀ deeds value, courses deeds value →
      ∀ state, TakesTurn conduct state (next value state) (nextCourses value))
    (state : σ) :
    TakesTurn conduct state (resumption.bind next state) (courses >>= nextCourses) := by
  have turn {rest : σ → σ × Resumption σ α}
      (ih : ∀ state {courses : Courses ε α}, Takes conduct (rest state).2 courses →
        (∀ deeds value, courses deeds value →
          ∀ state, TakesTurn conduct state (next value state) (nextCourses value)) → ∀ later,
        TakesTurn conduct later ((rest state).2.bind next later) (courses >>= nextCourses))
      {courses : Courses ε α} (takes : ∀ state, TakesTurn conduct state (rest state) courses)
      (goesOn : ∀ deeds value, courses deeds value →
        ∀ state, TakesTurn conduct state (next value state) (nextCourses value))
      (state : σ) :
      TakesTurn conduct state (bindTurn (rest state) next) (courses >>= nextCourses) := by
    obtain ⟨deeds, done, remains⟩ := takesTurn_iff.mp (takes state)
    rw [bindTurn_eq]
    have later := ih state remains (fun _ value taken => goesOn _ value taken) (rest state).1
    refine .precede done (later.weaken id ?_)
    intro _ _ given
    obtain ⟨before, after, value, rfl, first, second⟩ := given
    exact ⟨deeds ++ before, after, value, by simp, first, second⟩
  induction resumption using byTurns generalizing courses state with
  | done value =>
      refine (goesOn [] value takes state).weaken id fun {deeds _} second => ?_
      exact ⟨[], deeds, value, rfl, takes, second⟩
  | paused rest ih =>
      exact takesTurn_iff.mpr ⟨[], conduct.nothing state,
        turn (fun state _ remains goesOn later => ih state remains goesOn later) takes goesOn⟩
  | asleep wake rest ih =>
      exact takesTurn_iff.mpr ⟨[], conduct.nothing state,
        turn (fun state _ remains goesOn later => ih state remains goesOn later) takes goesOn⟩

theorem Takes.map (f : α → β) {resumption : Resumption σ α}
    (takes : Takes conduct resumption courses) :
    Takes conduct (resumption.map f) (f <$> courses) := by
  have turn {rest : σ → σ × Resumption σ α}
      (ih : ∀ state {courses : Courses ε α}, Takes conduct (rest state).2 courses →
        Takes conduct ((rest state).2.map f) (f <$> courses))
      {courses : Courses ε α} (takes : ∀ state, TakesTurn conduct state (rest state) courses)
      (state : σ) : TakesTurn conduct state (mapTurn f (rest state)) (f <$> courses) := by
    obtain ⟨deeds, done, remains⟩ := takesTurn_iff.mp (takes state)
    rw [mapTurn_eq]
    refine takesTurn_iff.mpr ⟨deeds, done, (ih state remains).mono ?_⟩
    intro later result mapped
    obtain ⟨value, taken, same⟩ := (Courses.map_iff ..).mp mapped
    exact (Courses.map_iff ..).mpr ⟨value, taken, same⟩
  induction resumption using byTurns generalizing courses with
  | done value => exact (Courses.map_iff ..).mpr ⟨value, takes, rfl⟩
  | paused rest ih => exact turn (fun state _ remains => ih state remains) takes
  | asleep wake rest ih => exact turn (fun state _ remains => ih state remains) takes

section Beside

variable {f : α → β → γ} {leftCourses : Courses ε α} {rightCourses : Courses ε β}
  {before middle after : σ} {first second : List ε} {rest : Resumption σ γ}

private theorem TakesTurn.ofLeft (done : conduct.may before first after)
    (remains : Takes conduct rest ((leftCourses.after first).beside f rightCourses)) :
    TakesTurn conduct before (after, rest) (leftCourses.beside f rightCourses) :=
  ⟨first, done, remains.mono Courses.beside_after_left⟩

private theorem TakesTurn.ofRight (done : conduct.may before second after)
    (remains : Takes conduct rest (leftCourses.beside f (rightCourses.after second))) :
    TakesTurn conduct before (after, rest) (leftCourses.beside f rightCourses) :=
  ⟨second, done, remains.mono Courses.beside_after_right⟩

private theorem TakesTurn.ofBoth (done : conduct.may before first middle)
    (goesOn : conduct.may middle second after)
    (remains : Takes conduct rest
      ((leftCourses.after first).beside f (rightCourses.after second))) :
    TakesTurn conduct before (after, rest) (leftCourses.beside f rightCourses) := by
  refine .precede done ?_
  exact (TakesTurn.ofRight goesOn remains).weaken id Courses.beside_after_left

end Beside

/-- Of two activities side by side, each takes its courses as if it were alone,
and their deeds are mixed. -/
theorem Takes.beside (f : α → β → γ) {left : Resumption σ α} {right : Resumption σ β}
    {leftCourses : Courses ε α} {rightCourses : Courses ε β}
    (takesLeft : Takes conduct left leftCourses) (takesRight : Takes conduct right rightCourses) :
    Takes conduct (left.beside f right) (leftCourses.beside f rightCourses) := by
  -- the induction on the left allows any right; the right is gone through only
  -- while the left sleeps
  induction left using byTurns generalizing leftCourses right rightCourses with
  | done value =>
      refine (takesRight.map (f value)).mono fun {deeds result} mapped => ?_
      obtain ⟨rightResult, taken, same⟩ := (Courses.map_iff ..).mp mapped
      exact ⟨[], deeds, value, rightResult, by simp, takesLeft, taken, same⟩
  | paused leftRest ih =>
      cases right with
      | paused rightRest =>
          simp only [Resumption.beside, besidePaused, besideTurn_eq, takes_paused]
          intro state
          obtain ⟨first, done, remains⟩ := takesTurn_iff.mp (takesLeft state)
          obtain ⟨second, goesOn, rest⟩ := takesTurn_iff.mp (takesRight (leftRest state).1)
          exact .ofBoth done goesOn (ih state remains rest)
      | _ =>
          simp only [Resumption.beside, besidePaused, besideTurn_eq, takes_paused]
          intro state
          obtain ⟨first, done, remains⟩ := takesTurn_iff.mp (takesLeft state)
          exact .ofLeft done (ih state remains takesRight)
  | asleep wake leftRest ih =>
      induction right using byTurns generalizing rightCourses with
      | done value =>
          simp only [Resumption.beside, besideAsleep, besideTurn_eq, takes_asleep]
          intro state
          obtain ⟨first, done, remains⟩ := takesTurn_iff.mp (takesLeft state)
          exact .ofLeft done (ih state remains takesRight)
      | paused rightRest ihRight =>
          simp only [Resumption.beside, besideAsleep, besideAsleepTurn_eq, takes_paused]
          intro state
          obtain ⟨second, done, remains⟩ := takesTurn_iff.mp (takesRight state)
          exact .ofRight done (by simpa only [Resumption.beside] using ihRight state remains)
      | asleep other rightRest ihRight =>
          simp only [Resumption.beside, besideAsleep, besideAsleepTurn_eq, takes_asleep]
          intro state
          obtain ⟨first, done, remains⟩ := takesTurn_iff.mp (takesLeft state)
          split
          · rw [besideTurn_eq]
            exact .ofLeft done (ih state remains takesRight)
          · split
            · obtain ⟨second, done, remains⟩ := takesTurn_iff.mp (takesRight state)
              exact .ofRight done (by simpa only [Resumption.beside] using ihRight state remains)
            · obtain ⟨second, goesOn, rest⟩ := takesTurn_iff.mp (takesRight (leftRest state).1)
              rw [besideTurn_eq]
              exact .ofBoth done goesOn (ih state remains rest)

/-- An activity inside another one: it has `own` to itself, which changes by a
conduct of its own, and the outer activity sees only what it shares. -/
theorem Takes.within {inner : Conduct (κ × ι) ε} {outer : Conduct (κ × ο) ε}
    (behind : Conduct ι ε)
    (allowed : ∀ {shared own deeds shared' own'}, inner.may (shared, own) deeds (shared', own') →
      behind.may own deeds own' ∧ ∀ rest, outer.may (shared, rest) deeds (shared', rest))
    {resumption : Resumption (κ × ι) α} (takes : Takes inner resumption courses) (own : ι) :
    Takes outer (resumption.within own : Resumption (κ × ο) (α × ι)) fun deeds result =>
      courses deeds result.1 ∧ behind.may own deeds result.2 := by
  have turn {rest : κ × ι → (κ × ι) × Resumption (κ × ι) α}
      (ih : ∀ state {courses : Courses ε α}, Takes inner (rest state).2 courses → ∀ own,
        Takes outer ((rest state).2.within own : Resumption (κ × ο) (α × ι)) fun deeds result =>
          courses deeds result.1 ∧ behind.may own deeds result.2)
      {courses : Courses ε α} (takes : ∀ state, TakesTurn inner state (rest state) courses)
      (own : ι) (state : κ × ο) :
      TakesTurn outer state (withinTurn state.2 (rest (state.1, own))) fun deeds result =>
        courses deeds result.1 ∧ behind.may own deeds result.2 := by
    obtain ⟨first, done, remains⟩ := takesTurn_iff.mp (takes (state.1, own))
    obtain ⟨changed, shown⟩ := allowed done
    rw [withinTurn_eq]
    refine ⟨first, shown state.2, (ih _ remains _).mono ?_⟩
    exact fun {_ _} ⟨taken, further⟩ => ⟨taken, behind.andThen changed further⟩
  induction resumption using byTurns generalizing courses own with
  | done value => exact ⟨takes, behind.nothing own⟩
  | paused rest ih => exact turn (fun state _ remains => ih state remains) takes own
  | asleep wake rest ih => exact turn (fun state _ remains => ih state remains) takes own

/-- What is done may be counted in another way, in which some of it is left out. -/
theorem Takes.filterMap {δ : Type} (f : ε → Option δ) {counted : Conduct σ δ}
    (allowed : ∀ {before deeds after}, conduct.may before deeds after →
      counted.may before (deeds.filterMap f) after)
    {resumption : Resumption σ α} (takes : Takes conduct resumption courses) :
    Takes counted resumption fun deeds result =>
      ∃ done, deeds = done.filterMap f ∧ courses done result := by
  have turn {rest : σ → σ × Resumption σ α}
      (ih : ∀ state {courses : Courses ε α}, Takes conduct (rest state).2 courses →
        Takes counted (rest state).2 fun deeds result =>
          ∃ done, deeds = done.filterMap f ∧ courses done result)
      {courses : Courses ε α} (takes : ∀ state, TakesTurn conduct state (rest state) courses)
      (state : σ) :
      TakesTurn counted state (rest state) fun deeds result =>
        ∃ done, deeds = done.filterMap f ∧ courses done result := by
    obtain ⟨first, done, goesOn⟩ := takesTurn_iff.mp (takes state)
    refine takesTurn_iff.mpr ⟨first.filterMap f, allowed done, (ih state goesOn).mono ?_⟩
    rintro _ _ ⟨later, rfl, taken⟩
    exact ⟨first ++ later, List.filterMap_append.symm, taken⟩
  induction resumption using byTurns generalizing courses with
  | done value => exact ⟨[], rfl, takes⟩
  | paused rest ih => exact turn (fun state _ goesOn => ih state goesOn) takes
  | asleep wake rest ih => exact turn (fun state _ goesOn => ih state goesOn) takes

/-- Given turns until it is done, an activity has taken one of its courses. -/
theorem Takes.finish {advance : Nat → σ → σ}
    (timely : ∀ time state, conduct.may state [] (advance time state))
    {resumption : Resumption σ α} (takes : Takes conduct resumption courses) (state : σ) :
    ∃ deeds, conduct.may state deeds (resumption.finish advance state).1 ∧
      courses deeds (resumption.finish advance state).2 := by
  have turn {rest : σ → σ × Resumption σ α}
      (ih : ∀ state {courses : Courses ε α}, Takes conduct (rest state).2 courses → ∀ later,
        ∃ deeds, conduct.may later deeds ((rest state).2.finish advance later).1 ∧
          courses deeds ((rest state).2.finish advance later).2)
      {courses : Courses ε α} (takes : ∀ state, TakesTurn conduct state (rest state) courses)
      (state : σ) :
      ∃ deeds, conduct.may state deeds (finishTurn advance (rest state)).1 ∧
        courses deeds (finishTurn advance (rest state)).2 := by
    obtain ⟨first, done, remains⟩ := takesTurn_iff.mp (takes state)
    obtain ⟨second, goesOn, taken⟩ := ih state remains (rest state).1
    rw [finishTurn_eq]
    exact ⟨first ++ second, conduct.andThen done goesOn, taken⟩
  induction resumption using byTurns generalizing courses state with
  | done value => exact ⟨[], conduct.nothing state, takes⟩
  | paused rest ih => exact turn (fun state _ remains => ih state remains) takes state
  | asleep wake rest ih =>
      obtain ⟨deeds, done, taken⟩ :=
        turn (fun state _ remains => ih state remains) takes (advance wake state)
      exact ⟨deeds, conduct.andThen (timely wake state) done, taken⟩

end Resumption

namespace Activity

open Resumption

variable {σ ε α β κ ι ο : Type} {conduct : Conduct σ ε}

/-- From whatever state it starts, an activity takes one of the courses. -/
def Takes (conduct : Conduct σ ε) (activity : Activity σ α) (courses : Courses ε α) : Prop :=
  ∀ state, TakesTurn conduct state (activity state) courses

namespace Takes

variable {activity : Activity σ α} {courses larger : Courses ε α}

theorem weaken {stricter conduct : Conduct σ ε}
    (takes : Activity.Takes stricter activity courses)
    (allowed : ∀ {before deeds after}, stricter.may before deeds after →
      conduct.may before deeds after)
    (included : ∀ {deeds value}, courses deeds value → larger deeds value) :
    Activity.Takes conduct activity larger :=
  fun state => (takes state).weaken allowed included

theorem mono (takes : Activity.Takes conduct activity courses)
    (included : ∀ {deeds value}, courses deeds value → larger deeds value) :
    Activity.Takes conduct activity larger :=
  takes.weaken id included

/-- An activity that is done within its first turn. -/
theorem atOnce {result : σ → α} (done : ∀ state, (activity state).2 = .done (result state))
    (taken : ∀ state, ∃ deeds, conduct.may state deeds (activity state).1 ∧
      courses deeds (result state)) : Activity.Takes conduct activity courses := by
  intro state
  obtain ⟨deeds, allowed, course⟩ := taken state
  refine takesTurn_iff.mpr ⟨deeds, allowed, ?_⟩
  rw [done]
  simpa [Resumption.Takes] using course

theorem pure (value : α) : Activity.Takes conduct (Pure.pure value) (Pure.pure value) :=
  atOnce (fun _ => rfl) fun state => ⟨[], conduct.nothing state, rfl, rfl⟩

theorem bindReached {next : α → Activity σ β} {nextCourses : α → Courses ε β}
    (takes : Activity.Takes conduct activity courses)
    (goesOn : ∀ deeds value, courses deeds value →
      Activity.Takes conduct (next value) (nextCourses value)) :
    Activity.Takes conduct (activity >>= next) (courses >>= nextCourses) := by
  intro state
  obtain ⟨first, done, remains⟩ := takesTurn_iff.mp (takes state)
  have later := remains.bind (fun _ value taken => goesOn _ value taken) (activity state).1
  rw [← bindTurn_eq] at later
  refine .precede done (later.weaken id ?_)
  intro _ _ given
  obtain ⟨before, after, value, rfl, second, third⟩ := given
  exact ⟨first ++ before, after, value, by simp, second, third⟩

theorem bind {next : α → Activity σ β} {nextCourses : α → Courses ε β}
    (takes : Activity.Takes conduct activity courses)
    (goesOn : ∀ value, Activity.Takes conduct (next value) (nextCourses value)) :
    Activity.Takes conduct (activity >>= next) (courses >>= nextCourses) :=
  takes.bindReached fun _ value _ => goesOn value

theorem bindPure {next : α → Activity σ β} {value : α} {nextCourses : Courses ε β}
    (takes : Activity.Takes conduct activity (Pure.pure value))
    (goesOn : Activity.Takes conduct (next value) nextCourses) :
    Activity.Takes conduct (activity >>= next) nextCourses := by
  have always : ∀ deeds result, (Pure.pure value : Courses ε α) deeds result →
      Activity.Takes conduct (next result) ((fun _ => nextCourses) result) := by
    intro _ _ given
    obtain ⟨_, rfl⟩ := given
    exact goesOn
  simpa using takes.bindReached always

theorem map (f : α → β) (takes : Activity.Takes conduct activity courses) :
    Activity.Takes conduct (f <$> activity) (f <$> courses) :=
  takes.bind fun value => .pure (f value)

/-- Activities that start one after another and go on side by side. -/
theorem all {activities : List (Activity σ α)} {courses : List (Courses ε α)}
    (takes : List.Forall₂ (Activity.Takes conduct) activities courses) :
    Activity.Takes conduct (Activity.all activities) (Courses.all courses) := by
  induction takes with
  | nil => exact pure []
  | cons first _ ih =>
      intro state
      obtain ⟨firstDeeds, done, remains⟩ := takesTurn_iff.mp (first state)
      obtain ⟨restDeeds, goesOn, rest⟩ := takesTurn_iff.mp (ih _)
      refine ⟨firstDeeds ++ restDeeds, conduct.andThen done goesOn, ?_⟩
      refine (remains.beside List.cons rest).mono fun taken => ?_
      rw [← Courses.after_after]
      exact Courses.beside_after_left (Courses.beside_after_right taken)

theorem allIdx {element : Type} {activity : Nat → element → Activity σ α}
    {courses : Nat → element → Courses ε α} (elements : List element)
    (takes : ∀ index element,
      Activity.Takes conduct (activity index element) (courses index element)) :
    Activity.Takes conduct (Activity.all (elements.mapIdx activity))
      (Courses.all (elements.mapIdx courses)) := by
  refine all ?_
  induction elements generalizing activity courses with
  | nil => exact .nil
  | cons first rest ih =>
      simp only [List.mapIdx_cons]
      exact .cons (takes 0 first) (ih fun index => takes (index + 1))

end Takes

theorem Takes.within {inner : Conduct (κ × ι) ε} {outer : Conduct (κ × ο) ε}
    (behind : Conduct ι ε)
    (allowed : ∀ {shared own deeds shared' own'}, inner.may (shared, own) deeds (shared', own') →
      behind.may own deeds own' ∧ ∀ rest, outer.may (shared, rest) deeds (shared', rest))
    {activity : Activity (κ × ι) α} {courses : Courses ε α} (takes : activity.Takes inner courses)
    (own : ι) :
    (activity.within own : Activity (κ × ο) (α × ι)).Takes outer fun deeds result =>
      courses deeds result.1 ∧ behind.may own deeds result.2 := by
  intro state
  obtain ⟨first, done, remains⟩ := takesTurn_iff.mp (takes (state.1, own))
  obtain ⟨changed, shown⟩ := allowed done
  rw [Activity.within, withinTurn_eq]
  refine ⟨first, shown state.2, (remains.within behind allowed _).mono ?_⟩
  exact fun {_ _} ⟨taken, further⟩ => ⟨taken, behind.andThen changed further⟩

theorem Takes.filterMap {δ : Type} (f : ε → Option δ) {counted : Conduct σ δ}
    {activity : Activity σ α} {courses : Courses ε α}
    (takes : activity.Takes conduct courses)
    (allowed : ∀ {before deeds after}, conduct.may before deeds after →
      counted.may before (deeds.filterMap f) after) :
    activity.Takes counted fun deeds result =>
      ∃ done, deeds = done.filterMap f ∧ courses done result := by
  intro state
  obtain ⟨first, done, goesOn⟩ := takesTurn_iff.mp (takes state)
  refine takesTurn_iff.mpr ⟨first.filterMap f, allowed done, (goesOn.filterMap f allowed).mono ?_⟩
  rintro _ _ ⟨later, rfl, taken⟩
  exact ⟨first ++ later, List.filterMap_append.symm, taken⟩

theorem Takes.run {advance : Nat → σ → σ} {activity : Activity σ α} {courses : Courses ε α}
    (timely : ∀ time state, conduct.may state [] (advance time state))
    (takes : activity.Takes conduct courses) (state : σ) :
    ∃ deeds, conduct.may state deeds (activity.run advance state).1 ∧
      courses deeds (activity.run advance state).2 := by
  obtain ⟨first, done, remains⟩ := takesTurn_iff.mp (takes state)
  obtain ⟨second, goesOn, taken⟩ := remains.finish timely (activity state).1
  rw [Activity.run, finishTurn_eq]
  exact ⟨first ++ second, conduct.andThen done goesOn, taken⟩

end Activity

end Workflow
