import Workflow.Proofs.Routes

/-! The output that a route takes.

A switch and a router, as they are stored, may lack the output that their configuration
leads to.  `Branching.evaluate_takes_output_iff` says when they notice: always, but for a
switch whose field cannot be evaluated.
-/

namespace Workflow

namespace Branching

variable {node : Node} {input : Json}

/-- What a switch compares its cases with: the input, or what the configured field makes
of it. -/
def subject (node : Node) (input : Json) : Except Expr.Failure Json :=
  let field := (node.configText? "field").getD ""
  if field.isEmpty then .ok input else Expr.value field input

/-- The output that the configuration of a node leads to. -/
inductive Selects (node : Node) (input : Json) : String → Prop
  | case {earlier later : List Json} {value compared : Json}
      (branches : node.templateId = switchTemplate)
      (accepted : caseValues node = .ok (earlier ++ value :: later))
      (evaluated : subject node input = .ok compared) (same : value.same compared)
      (first : ∀ other ∈ earlier, ¬ other.same compared) :
      Selects node input s!"case{earlier.length + 1}"
  | noCase {cases : List Json} {compared : Json} (branches : node.templateId = switchTemplate)
      (accepted : caseValues node = .ok cases) (evaluated : subject node input = .ok compared)
      (none : ∀ other ∈ cases, ¬ other.same compared) : Selects node input "default"
  | noSubject {cases : List Json} {failure : Expr.Failure}
      (branches : node.templateId = switchTemplate) (accepted : caseValues node = .ok cases)
      (failed : subject node input = .error failure) : Selects node input "default"
  | rule {earlier later : List (String × String)} {condition output : String}
      (branches : node.templateId = routerTemplate)
      (accepted : routeRules node = .ok (earlier ++ (condition, output) :: later))
      (holds : satisfied condition input) (first : ∀ other ∈ earlier, ¬ satisfied other.1 input) :
      Selects node input output
  | noRule {rules : List (String × String)} (branches : node.templateId = routerTemplate)
      (accepted : routeRules node = .ok rules) (none : ∀ other ∈ rules, ¬ satisfied other.1 input) :
      Selects node input ((node.configText? "defaultOutput").getD "default")

/-- Whether a switch has a field that cannot be evaluated. -/
def Unevaluated (node : Node) (input : Json) : Prop :=
  node.templateId = switchTemplate ∧ (∃ cases, caseValues node = .ok cases) ∧
    ∃ failure, subject node input = .error failure

theorem switch_ne_router : switchTemplate ≠ routerTemplate := by
  decide

theorem Selects.cases_accepted {port : String} (selects : Selects node input port)
    (branches : node.templateId = switchTemplate) : ∃ cases, caseValues node = .ok cases := by
  cases selects with
  | case _ accepted | noCase _ accepted | noSubject _ accepted => exact ⟨_, accepted⟩
  | rule other | noRule other => exact absurd (branches.symm.trans other) switch_ne_router

theorem Selects.rules_accepted {port : String} (selects : Selects node input port)
    (branches : node.templateId = routerTemplate) : ∃ rules, routeRules node = .ok rules := by
  cases selects with
  | case other | noCase other | noSubject other =>
      exact absurd (other.symm.trans branches) switch_ne_router
  | rule _ accepted | noRule _ accepted => exact ⟨_, accepted⟩

theorem casePort_of_first {earlier later : List Json} {value compared : Json}
    (same : value.same compared) (first : ∀ other ∈ earlier, ¬ other.same compared) :
    casePort (earlier ++ value :: later) compared = s!"case{earlier.length + 1}" := by
  have place : (earlier ++ value :: later).findIdx? (fun value => value.same compared) =
      some earlier.length := by
    rw [List.findIdx?_append, List.findIdx?_eq_none_iff.mpr (by simpa using first),
      List.findIdx?_cons, if_pos same]
    simp
  rw [casePort, place]

theorem casePort_of_none {cases : List Json} {compared : Json}
    (none : ∀ other ∈ cases, ¬ other.same compared) : casePort cases compared = "default" := by
  rw [casePort, List.findIdx?_eq_none_iff.mpr (by simpa using none)]

/-- Once a switch has accepted its cases and evaluated its field, it selects one output. -/
theorem selects_iff_of_subject {cases : List Json} {compared : Json}
    (branches : node.templateId = switchTemplate) (accepted : caseValues node = .ok cases)
    (evaluated : subject node input = .ok compared) (port : String) :
    Selects node input port ↔ port = casePort cases compared := by
  constructor
  · intro selects
    cases selects with
    | case _ listed found same first =>
        obtain rfl := Except.ok.inj (listed.symm.trans accepted)
        obtain rfl := Except.ok.inj (found.symm.trans evaluated)
        exact (casePort_of_first same first).symm
    | noCase _ listed found none =>
        obtain rfl := Except.ok.inj (listed.symm.trans accepted)
        obtain rfl := Except.ok.inj (found.symm.trans evaluated)
        exact (casePort_of_none none).symm
    | noSubject _ _ failed => exact absurd (failed.symm.trans evaluated) nofun
    | rule other | noRule other => exact absurd (branches.symm.trans other) switch_ne_router
  · rintro rfl
    cases found : cases.find? (fun value => value.same compared) with
    | none =>
        have none := List.find?_eq_none.mp found
        rw [casePort_of_none none]
        exact .noCase branches accepted evaluated none
    | some value =>
        obtain ⟨same, earlier, later, rfl, first⟩ := List.find?_eq_some_iff_append.mp found
        have first : ∀ other ∈ earlier, ¬ other.same compared := by simpa using first
        rw [casePort_of_first same first]
        exact .case branches accepted evaluated same first

theorem chosen_of_first {default condition output : String}
    {earlier later : List (String × String)} (holds : satisfied condition input)
    (first : ∀ other ∈ earlier, ¬ satisfied other.1 input) :
    chosen default input (earlier ++ (condition, output) :: later) = output := by
  induction earlier with
  | nil => rw [List.nil_append, chosen_cons, if_pos holds]
  | cons rule rest ih =>
      obtain ⟨other, first⟩ := List.forall_mem_cons.mp first
      rw [List.cons_append, chosen_cons, if_neg other, ih first]

theorem chosen_of_none {default : String} {rules : List (String × String)}
    (none : ∀ other ∈ rules, ¬ satisfied other.1 input) : chosen default input rules = default := by
  induction rules with
  | nil => rfl
  | cons rule rest ih =>
      obtain ⟨other, none⟩ := List.forall_mem_cons.mp none
      rw [chosen_cons, if_neg other, ih none]

/-- Once a router has accepted its rules, it selects one output. -/
theorem selects_iff_of_rules {rules : List (String × String)}
    (branches : node.templateId = routerTemplate) (accepted : routeRules node = .ok rules)
    (port : String) :
    Selects node input port ↔
      port = chosen ((node.configText? "defaultOutput").getD "default") input rules := by
  constructor
  · intro selects
    cases selects with
    | case other | noCase other | noSubject other =>
        exact absurd (other.symm.trans branches) switch_ne_router
    | rule _ listed holds first =>
        obtain rfl := Except.ok.inj (listed.symm.trans accepted)
        exact (chosen_of_first holds first).symm
    | noRule _ listed none =>
        obtain rfl := Except.ok.inj (listed.symm.trans accepted)
        exact (chosen_of_none none).symm
  · rintro rfl
    cases found : rules.find? (fun rule => satisfied rule.1 input) with
    | none =>
        have none := List.find?_eq_none.mp found
        rw [chosen_of_none none]
        exact .noRule branches accepted none
    | some rule =>
        obtain ⟨holds, earlier, later, rfl, first⟩ := List.find?_eq_some_iff_append.mp found
        have first : ∀ other ∈ earlier, ¬ satisfied other.1 input := by simpa using first
        rw [chosen_of_first holds first]
        exact .rule branches accepted holds first

theorem Unevaluated.selects (unevaluated : Unevaluated node input) {port : String} :
    Selects node input port ↔ port = "default" := by
  obtain ⟨branches, ⟨cases, accepted⟩, failure, failed⟩ := unevaluated
  constructor
  · intro selects
    cases selects with
    | case _ _ evaluated => exact absurd (failed.symm.trans evaluated) nofun
    | noCase | noSubject => rfl
    | rule other | noRule other => exact absurd (branches.symm.trans other) switch_ne_router
  · rintro rfl
    exact .noSubject branches accepted failed

/-- What the result of a node has to do with the output that its configuration leads to. -/
structure Follows (node : Node) (input : Json) (result : Except BranchError Outcome) : Prop where
  taken : ∀ port, Selects node input port → port ∈ node.outputKeys ∨ Unevaluated node input →
    result = .ok (.single port input)
  refused : ∀ port, Selects node input port → port ∉ node.outputKeys → ¬ Unevaluated node input →
    result = .error (.missingPort port)
  unread : (∀ port, ¬ Selects node input port) →
    ∃ reason, result = .error (.badCases reason) ∨ result = .error (.badRules reason)

theorem route_follows {port : String} (evaluated : ¬ Unevaluated node input)
    (selects : ∀ other, Selects node input other ↔ other = port) :
    Follows node input (route node port input) where
  taken other selected present := by
    obtain rfl := (selects other).mp selected
    have known := (node.output?_isSome_iff other).mpr (present.resolve_right evaluated)
    rw [route, if_pos known]
  refused other selected absent _ :=
    route_missing_iff.mpr ⟨((selects other).mp selected).symm, absent⟩
  unread nothing := absurd ((selects port).mpr rfl) (nothing port)

/-- A configuration that is not accepted leads to no output. -/
theorem rejected_follows {error : BranchError} (nothing : ∀ port, ¬ Selects node input port)
    (rejected : ∃ reason, error = .badCases reason ∨ error = .badRules reason) :
    Follows node input (.error error) where
  taken port selected := absurd selected (nothing port)
  refused port selected := absurd selected (nothing port)
  unread _ := by
    obtain ⟨reason, rfl | rfl⟩ := rejected
    · exact ⟨reason, .inl rfl⟩
    · exact ⟨reason, .inr rfl⟩

theorem mapError_rejects {α : Type} {wrap : ShapeError → BranchError}
    {read : Except ShapeError α} {error : BranchError}
    (rejected : read.mapError wrap = .error error) : ∃ reason, error = wrap reason := by
  cases read with
  | error reason => exact ⟨reason, (Except.error.inj rejected).symm⟩
  | ok => contradiction

theorem switchResult_follows (branches : node.templateId = switchTemplate) (input : Json) :
    Follows node input (switchResult node input) := by
  unfold switchResult
  cases accepted : caseValues node with
  | error error =>
      have nothing (port : String) : ¬ Selects node input port := fun selects =>
        have ⟨_, listed⟩ := selects.cases_accepted branches
        absurd (accepted.symm.trans listed) nofun
      refine rejected_follows nothing ?_
      unfold caseValues at accepted
      split at accepted
      · contradiction
      · obtain ⟨reason, rfl⟩ := mapError_rejects accepted
        exact ⟨reason, .inl rfl⟩
  | ok cases =>
      cases evaluated : subject node input with
      | ok compared =>
          have known : ¬ Unevaluated node input := fun ⟨_, _, _, failed⟩ =>
            absurd (evaluated.symm.trans failed) nofun
          have follows := route_follows known (selects_iff_of_subject branches accepted evaluated)
          unfold subject at evaluated
          dsimp only at evaluated ⊢
          split at evaluated
          next empty =>
            obtain rfl := Except.ok.inj evaluated
            rwa [if_pos empty]
          next given => rwa [if_neg given, evaluated]
      | error failure =>
          have unevaluated : Unevaluated node input := ⟨branches, ⟨_, accepted⟩, _, evaluated⟩
          unfold subject at evaluated
          dsimp only at evaluated ⊢
          split at evaluated
          · contradiction
          next given =>
            rw [if_neg given, evaluated]
            refine ⟨fun port selected _ => ?_, fun _ _ _ known => absurd unevaluated known,
              fun nothing => absurd (unevaluated.selects.mpr rfl) (nothing _)⟩
            rw [unevaluated.selects.mp selected]

theorem routerResult_follows (branches : node.templateId = routerTemplate) (input : Json) :
    Follows node input (routerResult node input) := by
  have known : ¬ Unevaluated node input := fun ⟨other, _⟩ =>
    switch_ne_router (other.symm.trans branches)
  unfold routerResult
  cases accepted : routeRules node with
  | error error =>
      have nothing (port : String) : ¬ Selects node input port := fun selects =>
        have ⟨_, listed⟩ := selects.rules_accepted branches
        absurd (accepted.symm.trans listed) nofun
      refine rejected_follows nothing ?_
      unfold routeRules at accepted
      split at accepted
      · contradiction
      · obtain ⟨reason, rfl⟩ := mapError_rejects accepted
        exact ⟨reason, .inr rfl⟩
  | ok rules => exact route_follows known (selects_iff_of_rules branches accepted)

/-- Results that go on are for one output of the node, but for that of a switch that has no
subject and no output for the rest. -/
theorem Follows.takes_output_iff {result : Except BranchError Outcome}
    (follows : Follows node input result) :
    (∀ outcome, result = .ok outcome → ∃ port ∈ node.outputKeys, outcome = .single port input) ↔
      ¬ (Unevaluated node input ∧ "default" ∉ node.outputKeys) := by
  by_cases selection : ∃ port, Selects node input port
  case neg =>
    have nothing := not_exists.mp selection
    refine iff_of_true (fun outcome good => ?_) fun ⟨unevaluated, _⟩ =>
      nothing _ (unevaluated.selects.mpr rfl)
    obtain ⟨reason, rfl | rfl⟩ := follows.unread nothing <;> contradiction
  case pos =>
    obtain ⟨port, selected⟩ := selection
    by_cases unevaluated : Unevaluated node input
    · obtain rfl := unevaluated.selects.mp selected
      obtain rfl := follows.taken _ selected (.inr unevaluated)
      constructor
      · intro there missing
        obtain ⟨other, known, same⟩ := there _ rfl
        obtain rfl : "default" = other := List.head_eq_of_cons_eq (congrArg Outcome.ports same)
        exact missing.2 known
      · intro present outcome good
        refine ⟨"default", not_not.mp fun absent => present ⟨unevaluated, absent⟩, ?_⟩
        exact (Except.ok.inj good).symm
    · refine iff_of_true (fun outcome good => ?_) fun missing => unevaluated missing.1
      by_cases known : port ∈ node.outputKeys
      · obtain rfl := follows.taken _ selected (.inl known)
        exact ⟨port, known, (Except.ok.inj good).symm⟩
      · obtain rfl := follows.refused _ selected known unevaluated
        contradiction

theorem switch_evaluates (branches : node.templateId = switchTemplate) (maxIterations : Nat)
    (input : Json) :
    Settles (fun surroundings => evaluate surroundings maxIterations node input)
      (switchResult node input) := by
  refine (switch_settles node input).congr fun surroundings => ?_
  rw [evaluate, branches, if_neg (by decide), if_pos rfl]

theorem router_evaluates (branches : node.templateId = routerTemplate) (maxIterations : Nat)
    (input : Json) :
    Settles (fun surroundings => evaluate surroundings maxIterations node input)
      (routerResult node input) := by
  refine (router_settles node input).congr fun surroundings => ?_
  rw [evaluate, branches, if_neg (by decide), if_neg (by decide), if_neg (by decide),
    if_neg (by decide), if_pos rfl]

/-- A switch or a router, with whatever configuration and outputs, follows its
configuration, and it fails where that leads to an output that is not there.  So when it
succeeds, it fires one output that it has, with one exception: a switch whose field cannot
be evaluated fires its output for the rest, even if there is none. -/
theorem evaluate_takes_output_iff
    (branches : node.templateId = switchTemplate ∨ node.templateId = routerTemplate)
    (maxIterations : Nat) (input : Json) :
    ∃ result,
      Settles (fun surroundings => evaluate surroundings maxIterations node input) result ∧
      Follows node input result ∧
      ((∀ outcome, result = .ok outcome →
          ∃ port ∈ node.outputKeys, outcome = .single port input) ↔
        ¬ (Unevaluated node input ∧ "default" ∉ node.outputKeys)) := by
  obtain ⟨result, settles, follows⟩ : ∃ result,
      Settles (fun surroundings => evaluate surroundings maxIterations node input) result ∧
      Follows node input result := by
    rcases branches with switches | routes
    · exact ⟨_, switch_evaluates switches _ input, switchResult_follows switches input⟩
    · exact ⟨_, router_evaluates routes _ input, routerResult_follows routes input⟩
  exact ⟨result, settles, follows, follows.takes_output_iff⟩

end Branching

/-- A switch without cases that compares what the given field makes of its input, and that
has no output for the rest. -/
def stale (field : String) : Node :=
  { id := "s", templateId := switchTemplate, kind := .condition, title := "s",
    config := [("cases", .array []), ("field", .string field)], position := .origin,
    inputs := [], outputs := [⟨"a", "case1", .output, anyType, false⟩], status := .idle }

/-- The outputs that it fires in surroundings where nothing else happens. -/
def staleFires (field : String) (input : Json) : Option (List String) :=
  let alone : Surroundings Id := ⟨fun _ _ _ => [], fun _ => ()⟩
  match Branching.evaluate alone 8 (stale field) input with
  | .ok outcome => some outcome.ports
  | .error _ => none

theorem evaluate_of_stale_fails :
    ((stale "").templateId = switchTemplate ∨ (stale "").templateId = routerTemplate) ∧
    Branching.Settles (fun surroundings => Branching.evaluate surroundings 8 (stale "") (.nat 1))
      (.error (.missingPort "default")) := by
  have branches : (stale "").templateId = switchTemplate ∨
      (stale "").templateId = routerTemplate := .inl rfl
  obtain ⟨result, settles, follows, _⟩ := Branching.evaluate_takes_output_iff branches 8 (.nat 1)
  have accepted : Branching.caseValues (stale "") = .ok [] := rfl
  have compared : Branching.subject (stale "") (.nat 1) = .ok (.nat 1) := rfl
  have selected : Branching.Selects (stale "") (.nat 1) "default" :=
    .noCase rfl accepted compared nofun
  have evaluated : ¬ Branching.Unevaluated (stale "") (.nat 1) := fun ⟨_, _, _, failed⟩ =>
    absurd failed nofun
  obtain rfl := follows.refused _ selected (by decide) evaluated
  exact ⟨branches, settles⟩

/-- With a field that is no expression it fires an output that it does not have; with one
that is, it fails. -/
theorem evaluate_of_stale_takes_missing :
    staleFires "data.a +" (.object [("a", .nat 1)]) = some ["default"] ∧
    staleFires "data.a" (.object [("a", .nat 1)]) = none ∧
    "default" ∉ (stale "data.a +").outputKeys := by
  decide +kernel

end Workflow
