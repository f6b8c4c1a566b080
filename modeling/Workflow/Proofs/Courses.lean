/-! What may happen, and in which order.

A course is a list of deeds and a result.  `Courses` are the courses that
something may take.  Doing one thing after another appends their deeds; doing
two things side by side mixes them in any way that keeps the order on each side,
so that what holds of every course holds however turns are taken.
-/

namespace Workflow

/-- Two lists mixed into one, with the order of each kept. -/
inductive Interleaved {ε : Type} : List ε → List ε → List ε → Prop where
  | nil : Interleaved [] [] []
  | left {deed left right mixed} :
      Interleaved left right mixed → Interleaved (deed :: left) right (deed :: mixed)
  | right {deed left right mixed} :
      Interleaved left right mixed → Interleaved left (deed :: right) (deed :: mixed)

namespace Interleaved

variable {ε δ : Type} {left right mixed : List ε}

theorem symm (interleaved : Interleaved left right mixed) : Interleaved right left mixed := by
  induction interleaved with
  | nil => exact .nil
  | left _ ih => exact .right ih
  | right _ ih => exact .left ih

theorem prepend_left (first : List ε) (interleaved : Interleaved left right mixed) :
    Interleaved (first ++ left) right (first ++ mixed) := by
  induction first with
  | nil => exact interleaved
  | cons deed rest ih => exact .left ih

theorem prepend_right (first : List ε) (interleaved : Interleaved left right mixed) :
    Interleaved left (first ++ right) (first ++ mixed) :=
  (interleaved.symm.prepend_left first).symm

@[simp] theorem nil_right : Interleaved left [] mixed ↔ mixed = left := by
  constructor
  · intro interleaved
    generalize empty : ([] : List ε) = none at interleaved
    induction interleaved with
    | nil => rfl
    | left _ ih => rw [ih empty]
    | right _ _ => contradiction
  · intro same
    obtain rfl := same
    simpa using Interleaved.nil.prepend_left mixed

@[simp] theorem nil_left : Interleaved [] right mixed ↔ mixed = right := by
  rw [← nil_right]
  exact ⟨symm, symm⟩

/-- Doing one thing after another is one way of doing both. -/
theorem append (left right : List ε) : Interleaved left right (left ++ right) := by
  simpa using (nil_left.mpr (rfl : right = right)).prepend_left left

theorem perm (interleaved : Interleaved left right mixed) : mixed.Perm (left ++ right) := by
  induction interleaved with
  | nil => exact .refl _
  | left _ ih => exact ih.cons _
  | right _ ih => exact (ih.cons _).trans List.perm_middle.symm

theorem filterMap (f : ε → Option δ) (interleaved : Interleaved left right mixed) :
    Interleaved (left.filterMap f) (right.filterMap f) (mixed.filterMap f) := by
  induction interleaved with
  | nil => exact .nil
  | @left deed _ _ _ _ ih =>
      cases kept : f deed with
      | none => simpa [kept] using ih
      | some image => simpa [kept] using ih.left
  | @right deed _ _ _ _ ih =>
      cases kept : f deed with
      | none => simpa [kept] using ih
      | some image => simpa [kept] using ih.right

theorem filter (keep : ε → Bool) (interleaved : Interleaved left right mixed) :
    Interleaved (left.filter keep) (right.filter keep) (mixed.filter keep) := by
  simpa using interleaved.filterMap (Option.guard fun deed => keep deed)

theorem mem_iff (interleaved : Interleaved left right mixed) {deed : ε} :
    deed ∈ mixed ↔ deed ∈ left ∨ deed ∈ right := by
  rw [interleaved.perm.mem_iff, List.mem_append]

/-- The last element is the last of one side. -/
theorem getLast? (interleaved : Interleaved left right mixed) {last : ε}
    (ends : mixed.getLast? = some last) :
    left.getLast? = some last ∨ right.getLast? = some last := by
  have step {deed : ε} {own other mixed : List ε} (interleaved : Interleaved own other mixed)
      (ih : mixed.getLast? = some last → own.getLast? = some last ∨ other.getLast? = some last)
      (ends : (deed :: mixed).getLast? = some last) :
      (deed :: own).getLast? = some last ∨ other.getLast? = some last := by
    cases mixed with
    | nil =>
        have empty : own = [] := List.eq_nil_iff_forall_not_mem.mpr fun one member =>
          List.not_mem_nil (interleaved.mem_iff.mpr (.inl member))
        exact .inl (empty ▸ ends)
    | cons next rest =>
        rw [List.getLast?_cons_cons] at ends
        exact (ih ends).imp_left fun found => by simp [List.getLast?_cons, found]
  induction interleaved with
  | nil => exact .inl ends
  | left interleaved ih => exact step interleaved ih ends
  | right interleaved ih => exact (step interleaved.symm (fun ends => (ih ends).symm) ends).symm

/-- Where elements of different sides may stand in any order, mixing does not break the
order on each side. -/
theorem pairwise {relation : ε → ε → Prop} (interleaved : Interleaved left right mixed)
    (first : left.Pairwise relation) (second : right.Pairwise relation)
    (across : ∀ one ∈ left, ∀ other ∈ right, relation one other ∧ relation other one) :
    mixed.Pairwise relation := by
  induction interleaved with
  | nil => exact .nil
  | left mixed ih =>
      obtain ⟨later, first⟩ := List.pairwise_cons.mp first
      obtain ⟨here, across⟩ := List.forall_mem_cons.mp across
      refine .cons (fun deed member => ?_) (ih first second across)
      exact (mixed.mem_iff.mp member).elim (later deed) fun inside => (here deed inside).1
  | @right deed left right mixed interleaved ih =>
      obtain ⟨later, second⟩ := List.pairwise_cons.mp second
      have here (one : ε) (inside : one ∈ left) : relation deed one :=
        (across one inside deed (by simp)).2
      have onward : ∀ one ∈ left, ∀ other ∈ right, relation one other ∧ relation other one :=
        fun one inside other member => across one inside other (by simp [member])
      refine .cons (fun other member => ?_) (ih first second onward)
      exact (interleaved.mem_iff.mp member).elim (here other) (later other)

end Interleaved

/-- The courses that something may take: the deeds, in order, and the result. -/
def Courses (ε α : Type) : Type :=
  List ε → α → Prop

namespace Courses

variable {ε α β γ : Type}

instance : Monad (Courses ε) where
  pure value := fun deeds result => deeds = [] ∧ result = value
  bind first next := fun deeds result =>
    ∃ before after value, deeds = before ++ after ∧ first before value ∧ next value after result

@[simp] theorem pure_iff (value result : α) (deeds : List ε) :
    (pure value : Courses ε α) deeds result ↔ deeds = [] ∧ result = value :=
  Iff.rfl

theorem map_iff (f : α → β) (courses : Courses ε α) (deeds : List ε) (result : β) :
    (f <$> courses) deeds result ↔ ∃ value, courses deeds value ∧ result = f value := by
  constructor
  · intro given
    obtain ⟨before, after, value, rfl, taken, rfl, rfl⟩ := given
    exact ⟨value, by simpa using taken, rfl⟩
  · intro given
    obtain ⟨value, taken, rfl⟩ := given
    exact ⟨deeds, [], value, by simp, taken, rfl, rfl⟩

protected theorem pure_bind (value : α) (next : α → Courses ε β) :
    (pure value >>= next) = next value := by
  funext deeds result
  refine propext ⟨?_, fun taken => ⟨[], deeds, value, rfl, ⟨rfl, rfl⟩, taken⟩⟩
  intro given
  obtain ⟨_, _, _, rfl, ⟨rfl, rfl⟩, taken⟩ := given
  exact taken

protected theorem bind_assoc (courses : Courses ε α) (next : α → Courses ε β)
    (last : β → Courses ε γ) :
    courses >>= next >>= last = courses >>= fun value => next value >>= last := by
  funext deeds result
  refine propext ⟨?_, ?_⟩
  · intro given
    obtain ⟨_, third, _, rfl, ⟨first, second, value, rfl, taken, goesOn⟩, ends⟩ := given
    exact ⟨first, second ++ third, value, by simp, taken, second, third, _, rfl, goesOn, ends⟩
  · intro given
    obtain ⟨first, _, value, rfl, taken, second, third, middle, rfl, goesOn, ends⟩ := given
    exact ⟨first ++ second, third, middle, by simp, ⟨first, second, value, rfl, taken, goesOn⟩,
      ends⟩

protected theorem id_map (courses : Courses ε α) : id <$> courses = courses := by
  funext deeds result
  simp [map_iff]

instance : LawfulMonad (Courses ε) :=
  LawfulMonad.mk' (Courses ε) Courses.id_map Courses.pure_bind Courses.bind_assoc

def note (deed : ε) : Courses ε Unit := fun deeds _ =>
  deeds = [deed]

def anything : Courses ε α := fun deeds _ =>
  deeds = []

/-- What remains of courses that begin with the given deeds. -/
def after (courses : Courses ε α) (before : List ε) : Courses ε α := fun deeds result =>
  courses (before ++ deeds) result

@[simp] theorem after_iff (courses : Courses ε α) (before deeds : List ε) (result : α) :
    courses.after before deeds result ↔ courses (before ++ deeds) result :=
  Iff.rfl

theorem after_after (courses : Courses ε α) (first second : List ε) :
    (courses.after first).after second = courses.after (first ++ second) := by
  funext deeds result
  simp [after]

/-- Two things side by side. -/
def beside (f : α → β → γ) (left : Courses ε α) (right : Courses ε β) : Courses ε γ :=
  fun deeds result =>
    ∃ leftDeeds rightDeeds leftResult rightResult,
      Interleaved leftDeeds rightDeeds deeds ∧ left leftDeeds leftResult ∧
        right rightDeeds rightResult ∧ result = f leftResult rightResult

theorem beside_after_left {f : α → β → γ} {left : Courses ε α} {right : Courses ε β}
    {first deeds : List ε} {result : γ} (taken : (left.after first).beside f right deeds result) :
    (left.beside f right).after first deeds result := by
  obtain ⟨leftDeeds, rightDeeds, leftResult, rightResult, mixed, leftTaken, rightTaken, rfl⟩ :=
    taken
  exact ⟨first ++ leftDeeds, rightDeeds, leftResult, rightResult, mixed.prepend_left first,
    leftTaken, rightTaken, rfl⟩

theorem beside_after_right {f : α → β → γ} {left : Courses ε α} {right : Courses ε β}
    {first deeds : List ε} {result : γ} (taken : left.beside f (right.after first) deeds result) :
    (left.beside f right).after first deeds result := by
  obtain ⟨leftDeeds, rightDeeds, leftResult, rightResult, mixed, leftTaken, rightTaken, rfl⟩ :=
    taken
  exact ⟨leftDeeds, first ++ rightDeeds, leftResult, rightResult, mixed.prepend_right first,
    leftTaken, rightTaken, rfl⟩

def all : List (Courses ε α) → Courses ε (List α)
  | [] => pure []
  | courses :: rest => beside List.cons courses (all rest)

/-- One after another is one way of going on side by side. -/
theorem all_of_mapM {program : β → Courses ε α} {elements : List β} {deeds : List ε}
    {results : List α} (taken : elements.mapM program deeds results) :
    all (elements.map program) deeds results := by
  induction elements generalizing deeds results with
  | nil => exact taken
  | cons element rest ih =>
      rw [List.mapM_cons] at taken
      obtain ⟨first, _, value, rfl, goes, others, _, values, rfl, follows, rfl, rfl⟩ := taken
      exact ⟨first, others, value, values, by simpa using Interleaved.append first others, goes,
        ih follows, rfl⟩

def Idle (courses : Courses ε α) : Prop :=
  ∀ deeds result, courses deeds result → deeds = []

namespace Idle

theorem deeds_eq {courses : Courses ε α} {deeds : List ε} {result : α} (idle : courses.Idle)
    (taken : courses deeds result) : deeds = [] :=
  idle deeds result taken

theorem pure (value : α) : (Pure.pure value : Courses ε α).Idle := fun _ _ taken =>
  taken.1

theorem bind {first : Courses ε α} {next : α → Courses ε β} (idle : first.Idle)
    (later : ∀ value, (next value).Idle) : (first >>= next).Idle := by
  intro _ result given
  obtain ⟨before, after, value, rfl, taken, goesOn⟩ := given
  rw [idle before value taken, later value after result goesOn]
  rfl

theorem map {courses : Courses ε α} (f : α → β) (idle : courses.Idle) : (f <$> courses).Idle := by
  intro deeds result taken
  obtain ⟨value, done, _⟩ := (map_iff f courses deeds result).mp taken
  exact idle deeds value done

end Idle

/-- Whether all deeds of all courses have a property. -/
def Only (holds : ε → Prop) (courses : Courses ε α) : Prop :=
  ∀ deeds result, courses deeds result → ∀ deed ∈ deeds, holds deed

namespace Only

variable {holds : ε → Prop}

theorem of_idle {courses : Courses ε α} (idle : courses.Idle) : courses.Only holds := by
  intro deeds result taken deed member
  rw [idle deeds result taken] at member
  contradiction

theorem pure (value : α) : (Pure.pure value : Courses ε α).Only holds :=
  of_idle (.pure value)

theorem note {deed : ε} (known : holds deed) : (Courses.note deed).Only holds := by
  intro _ _ taken other member
  obtain rfl := taken
  exact List.mem_singleton.mp member ▸ known

theorem bind {first : Courses ε α} {next : α → Courses ε β} (only : first.Only holds)
    (later : ∀ value, (next value).Only holds) : (first >>= next).Only holds := by
  intro _ result given deed member
  obtain ⟨before, after, value, rfl, taken, goesOn⟩ := given
  rcases List.mem_append.mp member with inside | inside
  · exact only before value taken deed inside
  · exact later value after result goesOn deed inside

theorem map {courses : Courses ε α} (f : α → β) (only : courses.Only holds) :
    (f <$> courses).Only holds :=
  only.bind fun value => .pure (f value)

theorem mapM {program : β → Courses ε α} {elements : List β}
    (each : ∀ element ∈ elements, (program element).Only holds) :
    (elements.mapM program).Only holds := by
  induction elements with
  | nil => exact .pure []
  | cons element rest ih =>
      obtain ⟨first, others⟩ := List.forall_mem_cons.mp each
      rw [List.mapM_cons]
      exact first.bind fun _ => (ih others).bind fun _ => .pure _

theorem allIdx {program : Nat → β → Courses ε α} {elements : List β}
    (each : ∀ index element, elements[index]? = some element →
      (program index element).Only holds) :
    (all (elements.mapIdx program)).Only holds := by
  induction elements generalizing program with
  | nil => exact .pure []
  | cons element rest ih =>
      rw [List.mapIdx_cons]
      intro deeds result given deed member
      obtain ⟨own, others, value, values, mixed, goes, follows, _⟩ := given
      rcases mixed.mem_iff.mp member with inside | inside
      · exact each 0 element rfl own value goes deed inside
      · exact ih (fun index later listed => each (index + 1) later listed) others values follows
          deed inside

end Only

end Courses

end Workflow
