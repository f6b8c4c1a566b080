/-! Activities that share a state and take turns.

An activity runs until it pauses, falls asleep, or is done; what remains of it is
a resumption.  Nothing else happens during its turn.  A round gives every
activity that has paused one turn, in a fixed order.  Sleepers get their turn
when every activity of a group sleeps and the earliest of them is due, so time
passes only while nobody could go on.

A resumption is a finite tree, hence every activity ends.
-/

namespace Workflow

/-- What remains of an activity on a state `σ` that results in an `α`. -/
inductive Resumption (σ α : Type) where
  | done (value : α)
  | paused (next : σ → σ × Resumption σ α)
  | asleep (wake : Nat) (next : σ → σ × Resumption σ α)

/-- An activity that has not started: given the state it takes its first
turn. -/
def Activity (σ α : Type) : Type :=
  σ → σ × Resumption σ α

namespace Resumption

variable {σ τ κ α β γ : Type}

mutual

/-- Goes on with `next` once the first activity is done, within the same
turn. -/
def bind (first : Resumption σ α) (next : α → Activity σ β) : Activity σ β :=
  match first with
  | .done value => next value
  | .paused rest => fun state => (state, .paused fun state => bindTurn (rest state) next)
  | .asleep wake rest => fun state =>
      (state, .asleep wake fun state => bindTurn (rest state) next)

def bindTurn (turn : σ × Resumption σ α) (next : α → Activity σ β) : σ × Resumption σ β :=
  match turn with
  | (state, rest) => bind rest next state

end

mutual

def map (f : α → β) : Resumption σ α → Resumption σ β
  | .done value => .done (f value)
  | .paused rest => .paused fun state => mapTurn f (rest state)
  | .asleep wake rest => .asleep wake fun state => mapTurn f (rest state)

def mapTurn (f : α → β) : σ × Resumption σ α → σ × Resumption σ β
  | (state, rest) => (state, map f rest)

end

/-- A turn of a left activity, and how it stands beside a right one after
that. -/
abbrev LeftTurn (σ β γ : Type) := σ → σ × (Resumption σ β → Resumption σ γ)

/-- A paused left activity beside a right one: a round gives the left its turn
first, and then the right if it has paused too. -/
def besidePaused (left : LeftTurn σ β γ) : Resumption σ β → Resumption σ γ
  | .paused right => .paused fun state =>
      let (state, join) := left state
      let (state, rest) := right state
      (state, join rest)
  | right => .paused fun state =>
      let (state, join) := left state
      (state, join right)

mutual

/-- A sleeping left activity beside a right one: it sleeps on while the right
can go on, and of two sleepers those due first get the next turn. -/
def besideAsleep (wake : Nat) (left : LeftTurn σ β γ) : Resumption σ β → Resumption σ γ
  | .done value => .asleep wake fun state =>
      let (state, join) := left state
      (state, join (.done value))
  | .paused right => .paused fun state => besideAsleepTurn wake left (right state)
  | .asleep other right => .asleep (min wake other) fun state =>
      if wake < other then
        let (state, join) := left state
        (state, join (.asleep other right))
      else if other < wake then besideAsleepTurn wake left (right state)
      else
        let (state, join) := left state
        let (state, rest) := right state
        (state, join rest)

def besideAsleepTurn (wake : Nat) (left : LeftTurn σ β γ) :
    σ × Resumption σ β → σ × Resumption σ γ
  | (state, rest) => (state, besideAsleep wake left rest)

end

mutual

/-- Two activities side by side.  They are done when both are. -/
def beside (f : α → β → γ) : Resumption σ α → Resumption σ β → Resumption σ γ
  | .done value, right => map (f value) right
  | .paused left, right => besidePaused (fun state => besideTurn f (left state)) right
  | .asleep wake left, right =>
      besideAsleep wake (fun state => besideTurn f (left state)) right

def besideTurn (f : α → β → γ) :
    σ × Resumption σ α → σ × (Resumption σ β → Resumption σ γ)
  | (state, rest) => (state, fun right => beside f rest right)

end

mutual

/-- Runs an activity with a part `ι` of the state for itself, inside an activity
whose own part `ο` it leaves alone. -/
def within {ι ο : Type} : Resumption (κ × ι) α → ι → Resumption (κ × ο) (α × ι)
  | .done value, inner => .done (value, inner)
  | .paused rest, inner => .paused fun state =>
      withinTurn state.2 (rest (state.1, inner))
  | .asleep wake rest, inner => .asleep wake fun state =>
      withinTurn state.2 (rest (state.1, inner))

def withinTurn {ι ο : Type} (outer : ο) :
    (κ × ι) × Resumption (κ × ι) α → (κ × ο) × Resumption (κ × ο) (α × ι)
  | ((shared, inner), rest) => ((shared, outer), within rest inner)

end

mutual

/-- Gives turns until the activity is done.  `advance` tells the state that a
sleeper is due. -/
def finish (advance : Nat → σ → σ) : Resumption σ α → σ → σ × α
  | .done value, state => (state, value)
  | .paused rest, state => finishTurn advance (rest state)
  | .asleep wake rest, state => finishTurn advance (rest (advance wake state))

def finishTurn (advance : Nat → σ → σ) : σ × Resumption σ α → σ × α
  | (state, rest) => finish advance rest state

end

end Resumption

namespace Activity

variable {σ α β : Type}

instance : Monad (Activity σ) where
  pure value := fun state => (state, .done value)
  bind first next := fun state => Resumption.bindTurn (first state) next

def get : Activity σ σ := fun state => (state, .done state)

def modify (f : σ → σ) : Activity σ Unit := fun state => (f state, .done ())

def modifyGet (f : σ → α × σ) : Activity σ α := fun state =>
  let (value, state) := f state
  (state, .done value)

def pause : Activity σ Unit := fun state =>
  (state, .paused fun state => (state, .done ()))

def sleepUntil (wake : Nat) : Activity σ Unit := fun state =>
  (state, .asleep wake fun state => (state, .done ()))

/-- Starts activities one after another, each taking its first turn, and lets
them go on side by side. -/
def all : List (Activity σ α) → Activity σ (List α)
  | [] => fun state => (state, .done [])
  | activity :: rest => fun state =>
      let (state, left) := activity state
      let (state, right) := all rest state
      (state, Resumption.beside List.cons left right)

/-- Runs an activity with a part of the state for itself, which starts as
`inner`. -/
def within {κ ι ο : Type} (activity : Activity (κ × ι) α) (inner : ι) :
    Activity (κ × ο) (α × ι) := fun state =>
  Resumption.withinTurn state.2 (activity (state.1, inner))

def run (advance : Nat → σ → σ) (activity : Activity σ α) (state : σ) : σ × α :=
  Resumption.finishTurn advance (activity state)

end Activity

end Workflow
