import Workflow.Branching
import Workflow.Proofs.NodeSessions

/-! The outputs that routes lead to.

Editing gives a switch and a router an output for everything that their configuration
names.  What a configuration names is read in two ways: field by field when the outputs
are made, and as whole records when the node works.  `Editor.session_routes` says how far
the two agree.
-/

namespace Workflow

/-- A node that has the outputs that its configuration names, and the one for what is
left. -/
structure Node.Routes (node : Node) : Prop where
  rest : node.templateId = switchTemplate ∨ node.templateId = routerTemplate →
    "default" ∈ node.outputKeys
  configured : node.configuredOutputs ⊆ node.outputKeys

namespace Node

theorem configuredOutputs_congr {node other : Node} (template : other.templateId = node.templateId)
    (config : other.config = node.config) : other.configuredOutputs = node.configuredOutputs := by
  simp only [configuredOutputs, configText?, template, config]

theorem Routes.congr {node other : Node} (routes : node.Routes)
    (template : other.templateId = node.templateId) (config : other.config = node.config)
    (keys : other.outputKeys = node.outputKeys) : other.Routes where
  rest branches := keys ▸ routes.rest (template ▸ branches)
  configured := by
    rw [configuredOutputs_congr template config, keys]
    exact routes.configured

/-- Whatever the outputs were, those that the configuration names are added. -/
theorem syncConfigPorts_routes {node : Node} (ids : Ids)
    (rest : node.templateId = switchTemplate ∨ node.templateId = routerTemplate →
      "default" ∈ node.outputKeys) : (syncConfigPorts node ids).1.Routes := by
  have named := subset_addOutputs node.configuredOutputs node ids
  obtain ⟨extra, same, _⟩ := addOutputs_new node.configuredOutputs node ids
  rw [same] at named
  rw [syncConfigPorts, same]
  refine ⟨fun branches => ?_, named⟩
  rw [outputKeys, List.map_append]
  exact List.mem_append_left _ (rest branches)

end Node

theorem Catalog.routing_templates : ∀ template ∈ templates,
    template.id = switchTemplate ∨ template.id = routerTemplate →
      "default" ∈ template.outputs.map (·.key) := by
  decide

/-- However a node is edited, it has the outputs that its configuration names. -/
theorem Node.routes_lasting : Node.Lasting (fun _ => True) Node.Routes where
  made {template} listed position ids _ := by
    rw [ofTemplate_eq]
    dsimp only
    refine syncConfigPorts_routes _ fun branches => ?_
    rw [outputKeys, keys_mapM Port.ofTemplate_key]
    exact Catalog.routing_templates template listed branches
  instantiated definition position ids _ := by
    have template : (definition.instantiate position ids).1.templateId = subflowTemplate := by
      rw [Subflow.instantiate_eq]
      exact ofTemplate_templateId Catalog.subflow position ids
    constructor
    case rest =>
      rw [template]
      exact fun branches => absurd branches (by decide)
    case configured =>
      rw [configuredOutputs, template]
      exact List.nil_subset _
  copied {node} ids routes := by
    obtain ⟨id, title, position, first, second, later, shape⟩ := node.duplicate_shape _ _ ids
    rw [shape]
    exact routes.congr rfl rfl (keys_mapM Port.freshCopy_key node.outputs second)
  configured config ids routes := syncConfigPorts_routes ids routes.rest
  shown _ _ routes := routes.congr rfl rfl rfl
  flagged {node} f flags routes := by
    refine routes.congr rfl rfl (node.mapPorts_outputKeys fun port => ?_)
    obtain ⟨connected, same⟩ := flags port
    rw [same]

theorem Except.getElem?_mapM {ε α β : Type} {f : α → Except ε β} {elements : List α}
    {results : List β} (read : elements.mapM f = .ok results) (i : Nat) :
    elements[i]?.map f = results[i]?.map .ok := by
  induction elements generalizing results i with
  | nil =>
      obtain rfl := Except.ok.inj read
      rfl
  | cons element rest ih =>
      rw [List.mapM_cons] at read
      obtain ⟨result, first, further⟩ := bind_eq_ok_iff.mp read
      obtain ⟨more, others, whole⟩ := bind_eq_ok_iff.mp further
      obtain rfl : result :: more = results := Except.ok.inj whole
      cases i with
      | zero => simp [first]
      | succ i => simpa using ih others i

theorem Except.mapM_pair {ε α β : Type} {f : α → Except ε β} {first second : α} {results : List β}
    (read : [first, second].mapM f = .ok results) :
    ∃ one other, f first = .ok one ∧ f second = .ok other ∧ results = [one, other] := by
  rw [List.mapM_cons] at read
  obtain ⟨one, here, further⟩ := bind_eq_ok_iff.mp read
  obtain ⟨rest, last, whole⟩ := bind_eq_ok_iff.mp further
  rw [List.mapM_cons] at last
  obtain ⟨other, there, alone⟩ := bind_eq_ok_iff.mp last
  obtain rfl : one :: rest = results := Except.ok.inj whole
  obtain rfl : [other] = rest := Except.ok.inj alone
  exact ⟨one, other, here, there, rfl⟩

namespace Json

theorem expectText_eq_ok {value : Json} {text : String} (accepted : value.expectText = .ok text) :
    value = .string text := by
  cases value with
  | string found => exact congrArg Json.string (Except.ok.inj accepted)
  | _ => contradiction

/-- What is accepted as a list is an array, and every item of it is accepted. -/
theorem expectList_cases {α : Type} {read : Json → Except ShapeError α} {raw : Json}
    {found : List α}
    (accepted : expectList read raw = .ok found) :
    ∃ items, raw = .array items ∧ items.mapM read = .ok found := by
  cases raw with
  | array items => exact ⟨items, rfl, accepted⟩
  | _ => contradiction

/-- What is accepted as a record is an object with the named fields, or an array of as
many items. -/
theorem expectRecord_cases {α : Type} {type : String}
    {readers : List (String × (Json → Except ShapeError α))} {value : Json} {found : List α}
    (accepted : expectRecord type readers value = .ok found) :
    (∃ fields, value = .object fields ∧
      (readers.mapM fun (name, read) =>
        match Fields.get? fields name with
        | some value => read value
        | none => .error (.missingField name)) = .ok found) ∨
    ∃ items, value = .array items ∧ items.length = readers.length ∧
      ((readers.zip items).mapM fun ((_, read), value) => read value) = .ok found := by
  cases value with
  | object fields =>
      obtain ⟨_, _, read⟩ := bind_eq_ok_iff.mp accepted
      exact .inl ⟨fields, rfl, read⟩
  | array items =>
      obtain ⟨results, read, sized⟩ := bind_eq_ok_iff.mp accepted
      split at sized
      · contradiction
      · split at sized
        · contradiction
        · obtain rfl := Except.ok.inj sized
          exact .inr ⟨items, rfl, by omega, read⟩
  | _ => contradiction

end Json

namespace Branching

/-- Whether, in any surroundings, a program leaves some warnings and otherwise only has
the given result. -/
def Settles {α : Type} (program : ∀ {m : Type → Type} [Monad m], Surroundings m → m α)
    (result : α) : Prop :=
  ∃ warnings : List String, ∀ {m : Type → Type} [Monad m] [LawfulMonad m]
    (surroundings : Surroundings m),
    program surroundings = do
      warnings.forM surroundings.warn
      return result

theorem Settles.pure {α : Type} (result : α) : Settles (fun _ => Pure.pure result) result :=
  ⟨[], fun _ => by simp⟩

theorem Settles.warn {α : Type} (message : String) (result : α) :
    Settles (fun surroundings => do
      surroundings.warn message
      return result) result :=
  ⟨[message], fun _ => by simp⟩

theorem Settles.bind {α β : Type} {first : ∀ {m : Type → Type} [Monad m], Surroundings m → m α}
    {next : ∀ {m : Type → Type} [Monad m], α → Surroundings m → m β} {value : α} {result : β}
    (settles : Settles first value) (goesOn : Settles (next value) result) :
    Settles (fun surroundings => do next (← first surroundings) surroundings) result := by
  obtain ⟨before, settles⟩ := settles
  obtain ⟨after, goesOn⟩ := goesOn
  refine ⟨before ++ after, fun surroundings => ?_⟩
  have one : first surroundings = _ := settles surroundings
  have other : next value surroundings = _ := goesOn surroundings
  dsimp only
  rw [one, bind_assoc, pure_bind, other, ← bind_assoc]
  simp [List.forM_append]

/-- Whether a condition holds; one that cannot be evaluated does not. -/
def satisfied (condition : String) (payload : Json) : Bool :=
  (Expr.holds condition payload).toOption.getD false

theorem holds_settles (condition : String) (payload : Json) :
    Settles (fun surroundings => holds surroundings condition payload)
      (satisfied condition payload) := by
  unfold holds satisfied
  cases Expr.holds condition payload with
  | ok result => exact .pure result
  | error failure => exact .warn _ false

/-- The first rule whose condition holds. -/
def decisive? (payload : Json) (rules : List (String × String)) : Option Nat :=
  rules.findIdx? fun rule => satisfied rule.1 payload

/-- The output of the first rule whose condition holds. -/
def chosen (default : String) (payload : Json) (rules : List (String × String)) : String :=
  (((decisive? payload rules).bind (rules[·]?)).map (·.2)).getD default

theorem chosen_cons (default : String) (payload : Json) (rule : String × String)
    (rest : List (String × String)) :
    chosen default payload (rule :: rest) =
      if satisfied rule.1 payload then rule.2 else chosen default payload rest := by
  unfold chosen decisive?
  rw [List.findIdx?_cons]
  split
  · rfl
  · cases List.findIdx? (fun rule => satisfied rule.1 payload) rest <;> rfl

theorem firstRoute_settles (default : String) (payload : Json) (rules : List (String × String)) :
    Settles (fun surroundings => firstRoute surroundings default payload rules)
      (chosen default payload rules) := by
  induction rules with
  | nil => exact .pure default
  | cons rule rest ih =>
      refine (holds_settles rule.1 payload).bind ?_
      rw [chosen_cons]
      cases satisfied rule.1 payload with
      | true => exact .pure rule.2
      | false => exact ih

theorem Settles.congr {α : Type}
    {program other : ∀ {m : Type → Type} [Monad m], Surroundings m → m α} {result : α}
    (settles : Settles program result)
    (same : ∀ {m : Type → Type} [Monad m] (surroundings : Surroundings m),
      other surroundings = program surroundings) : Settles other result := by
  obtain ⟨warnings, settles⟩ := settles
  exact ⟨warnings, fun surroundings => (same surroundings).trans (settles surroundings)⟩

/-- What a router comes to, warnings aside. -/
def routerResult (node : Node) (input : Json) : Except BranchError Outcome :=
  match routeRules node with
  | .error error => .error error
  | .ok rules =>
      route node (chosen ((node.configText? "defaultOutput").getD "default") input rules) input

theorem router_settles (node : Node) (input : Json) :
    Settles (fun surroundings => router surroundings node input) (routerResult node input) := by
  unfold router routerResult
  cases routeRules node with
  | error error => exact .pure _
  | ok rules => exact (firstRoute_settles _ input rules).bind (.pure _)

/-- What a switch comes to, warnings aside. -/
def switchResult (node : Node) (input : Json) : Except BranchError Outcome :=
  match caseValues node with
  | .error error => .error error
  | .ok cases =>
      let field := (node.configText? "field").getD ""
      if field.isEmpty then route node (casePort cases input) input
      else
        match Expr.value field input with
        | .ok subject => route node (casePort cases subject) input
        | .error _ => .ok (.single "default" input)

theorem switch_settles (node : Node) (input : Json) :
    Settles (fun surroundings => switch surroundings node input) (switchResult node input) := by
  unfold switch switchResult
  cases caseValues node with
  | error error => exact .pure _
  | ok cases =>
      dsimp only
      split
      · exact .pure _
      · cases Expr.value ((node.configText? "field").getD "") input with
        | ok subject => exact .pure _
        | error failure => exact .warn _ _

theorem route_missing_iff {node : Node} {key port : String} {payload : Json} :
    route node key payload = .error (.missingPort port) ↔ key = port ∧ port ∉ node.outputKeys := by
  unfold route
  by_cases present : (node.output? key).isSome
  · rw [if_pos present]
    simp only [reduceCtorEq, false_iff, not_and, not_not]
    rintro rfl
    exact (node.output?_isSome_iff key).mp present
  · rw [if_neg present]
    have absent : key ∉ node.outputKeys := fun known =>
      present ((node.output?_isSome_iff key).mpr known)
    simp only [Except.error.injEq, BranchError.missingPort.injEq]
    constructor
    · rintro rfl
      exact ⟨rfl, absent⟩
    · exact And.left

theorem mapError_ne_missing {α : Type} {wrap : ShapeError → BranchError}
    {read : Except ShapeError α} {error : BranchError}
    (rejected : read.mapError wrap = .error error) {port : String}
    (other : ∀ reason, wrap reason ≠ .missingPort port) :
    error ≠ .missingPort port := by
  cases read with
  | error reason => exact Except.error.inj rejected ▸ other reason
  | ok => contradiction

/-- A switch that accepts its cases has an output for each. -/
theorem casePort_routes {node : Node} (routes : node.Routes)
    (branches : node.templateId = switchTemplate) {cases : List Json}
    (accepted : caseValues node = .ok cases) (subject : Json) :
    casePort cases subject ∈ node.outputKeys := by
  unfold casePort
  split
  next i found =>
    obtain ⟨inside, _⟩ := List.findIdx?_eq_some_iff_getElem.mp found
    unfold caseValues at accepted
    refine routes.configured ?_
    rw [Node.configuredOutputs, if_pos branches]
    cases listed : Fields.get? node.config "cases" with
    | none =>
        rw [listed] at accepted
        obtain rfl := Except.ok.inj accepted
        contradiction
    | some raw =>
        rw [listed] at accepted
        obtain ⟨items, rfl, read⟩ := Json.expectList_cases (mapError_eq_ok_iff.mp accepted)
        have known : items[i]?.isSome := by
          have same := congrArg Option.isSome (Except.getElem?_mapM read i)
          simpa [inside] using same
        have short : i < items.length := by simpa using known
        exact List.mem_map.mpr ⟨i, by simpa [Json.array?] using short, rfl⟩
  next => exact routes.rest (.inl branches)

/-- What the rules of a router are read by. -/
def routeRule (value : Json) : Except ShapeError (String × String) :=
  (Json.expectRecord "RouteRule"
    [("condition", Json.expectText), ("output", Json.expectText)] value).map
    fun found => (found.getD 0 "", found.getD 1 "")

/-- A rule that is accepted names its output in a field of an object, or it is an array
of a condition and an output. -/
theorem routeRule_cases {value : Json} {condition output : String}
    (accepted : routeRule value = .ok (condition, output)) :
    (value.field? "output").bind Json.string? = some output ∨
      value = .array [.string condition, .string output] := by
  unfold routeRule at accepted
  cases record : Json.expectRecord "RouteRule"
      [("condition", Json.expectText), ("output", Json.expectText)] value with
  | error error =>
      rw [record] at accepted
      contradiction
  | ok found =>
      rw [record] at accepted
      obtain ⟨rfl, rfl⟩ := Prod.mk.inj (Except.ok.inj accepted)
      rcases Json.expectRecord_cases record with ⟨fields, rfl, read⟩ | ⟨items, rfl, length, read⟩
      · obtain ⟨_, text, _, there, rfl⟩ := Except.mapM_pair read
        refine .inl ?_
        cases named : Fields.get? fields "output" with
        | none => simp [named] at there
        | some value =>
            simp only [named] at there
            obtain rfl := Json.expectText_eq_ok there
            simp [Json.field?, Json.object?, named, Json.string?]
      · match items, length with
        | [first, second], _ =>
            obtain ⟨_, _, here, there, rfl⟩ := Except.mapM_pair read
            obtain rfl := Json.expectText_eq_ok here
            obtain rfl := Json.expectText_eq_ok there
            exact .inr rfl

/-- The rule that decides is written as an array, and the output that it names is not
there. -/
def Unread (node : Node) (input : Json) (port : String) : Prop :=
  ∃ items rules index condition, Fields.get? node.config "rules" = some (.array items) ∧
    routeRules node = .ok rules ∧ decisive? input rules = some index ∧
    items[index]? = some (.array [.string condition, .string port]) ∧ port ∉ node.outputKeys

/-- Rules that are accepted are those of the configured array. -/
theorem routeRules_cases {node : Node} {rules : List (String × String)}
    (accepted : routeRules node = .ok rules) :
    Fields.get? node.config "rules" = none ∧ rules = [] ∨
      ∃ items, Fields.get? node.config "rules" = some (.array items) ∧
        items.mapM routeRule = .ok rules := by
  unfold routeRules at accepted
  cases listed : Fields.get? node.config "rules" with
  | none =>
      rw [listed] at accepted
      exact .inl ⟨rfl, (Except.ok.inj accepted).symm⟩
  | some raw =>
      rw [listed] at accepted
      obtain ⟨items, rfl, read⟩ := Json.expectList_cases (mapError_eq_ok_iff.mp accepted)
      exact .inr ⟨items, rfl, read⟩

theorem chosen_of_decisive {default condition output : String} {payload : Json}
    {rules : List (String × String)} {index : Nat} (decides : decisive? payload rules = some index)
    (rule : rules[index]? = some (condition, output)) : chosen default payload rules = output := by
  rw [chosen, decides]
  simp [rule]

/-- Each accepted rule is read from the item at its place. -/
theorem routeRules_getElem? {node : Node} {rules : List (String × String)}
    (accepted : routeRules node = .ok rules) {index : Nat} {rule : String × String}
    (listed : rules[index]? = some rule) :
    ∃ items item, Fields.get? node.config "rules" = some (.array items) ∧
      items[index]? = some item ∧ routeRule item = .ok rule := by
  rcases routeRules_cases accepted with ⟨_, rfl⟩ | ⟨items, known, read⟩
  · contradiction
  · have same := Except.getElem?_mapM read index
    rw [listed] at same
    obtain ⟨item, written, taken⟩ := Option.map_eq_some_iff.mp same
    exact ⟨items, item, known, written, taken⟩

namespace Router

variable {node : Node} (routes : node.Routes) (branches : node.templateId = routerTemplate)

include routes branches

theorem configured_mem {key : String}
    (named : key ∈ ((((Fields.get? node.config "rules").bind Json.array?).getD []).filterMap
      fun rule => (rule.field? "output").bind Json.string?) ++
        (node.configText? "defaultOutput").toList) : key ∈ node.outputKeys := by
  have other : node.templateId ≠ switchTemplate := by
    rw [branches]
    decide
  refine routes.configured ?_
  rwa [Node.configuredOutputs, if_neg other, if_pos branches]

theorem default_mem : (node.configText? "defaultOutput").getD "default" ∈ node.outputKeys := by
  cases default : node.configText? "defaultOutput" with
  | none => exact routes.rest (.inr branches)
  | some text => exact configured_mem routes branches (by simp [default])

/-- There is an output for each rule whose field names it. -/
theorem field_mem {items : List Json} {item : Json} {output : String}
    (listed : Fields.get? node.config "rules" = some (.array items)) (written : item ∈ items)
    (field : (item.field? "output").bind Json.string? = some output) :
    output ∈ node.outputKeys := by
  refine configured_mem routes branches (List.mem_append_left _ ?_)
  rw [listed]
  exact List.mem_filterMap.mpr ⟨item, written, field⟩

end Router

/-- The output that a router chooses is there, but for that of a rule written as an
array. -/
theorem chosen_missing_iff {node : Node} (routes : node.Routes)
    (branches : node.templateId = routerTemplate) {rules : List (String × String)}
    (accepted : routeRules node = .ok rules) (input : Json) (port : String) :
    (chosen ((node.configText? "defaultOutput").getD "default") input rules = port ∧
        port ∉ node.outputKeys) ↔ Unread node input port := by
  constructor
  · rintro ⟨rfl, absent⟩
    cases decides : decisive? input rules with
    | none =>
        rw [chosen, decides] at absent
        exact absurd (Router.default_mem routes branches) absent
    | some index =>
        obtain ⟨inside, _⟩ := List.findIdx?_eq_some_iff_getElem.mp decides
        obtain ⟨⟨condition, output⟩, rule⟩ : ∃ rule, rules[index]? = some rule :=
          ⟨_, List.getElem?_eq_getElem inside⟩
        rw [chosen_of_decisive decides rule] at absent ⊢
        obtain ⟨items, item, listed, written, taken⟩ := routeRules_getElem? accepted rule
        rcases routeRule_cases taken with field | rfl
        · exact absurd (Router.field_mem routes branches listed (List.mem_of_getElem? written)
            field) absent
        · exact ⟨items, rules, index, condition, listed, accepted, decides, written, absent⟩
  · rintro ⟨items, again, index, condition, listed, read, decides, written, absent⟩
    obtain rfl := Except.ok.inj (read.symm.trans accepted)
    obtain ⟨inside, _⟩ := List.findIdx?_eq_some_iff_getElem.mp decides
    have rule := List.getElem?_eq_getElem inside
    obtain ⟨others, item, known, there, taken⟩ := routeRules_getElem? accepted rule
    obtain rfl := Json.array.inj (Option.some.inj (known.symm.trans listed))
    obtain rfl := Option.some.inj (there.symm.trans written)
    exact ⟨chosen_of_decisive decides (rule.trans (congrArg some (Except.ok.inj taken).symm)),
      absent⟩

theorem switchResult_ne_missing {node : Node} (routes : node.Routes)
    (branches : node.templateId = switchTemplate) (input : Json) (port : String) :
    switchResult node input ≠ .error (.missingPort port) := by
  have routed {cases : List Json} (accepted : caseValues node = .ok cases) (subject : Json) :
      route node (casePort cases subject) input ≠ .error (.missingPort port) := by
    intro missing
    obtain ⟨rfl, absent⟩ := route_missing_iff.mp missing
    exact absent (casePort_routes routes branches accepted subject)
  unfold switchResult
  cases accepted : caseValues node with
  | error error =>
      intro same
      unfold caseValues at accepted
      split at accepted
      · contradiction
      · exact mapError_ne_missing accepted (fun _ => nofun) (Except.error.inj same)
  | ok cases =>
      dsimp only
      split
      · exact routed accepted input
      · split
        · exact routed accepted _
        · nofun

theorem routerResult_missing_iff {node : Node} (routes : node.Routes)
    (branches : node.templateId = routerTemplate) (input : Json) (port : String) :
    routerResult node input = .error (.missingPort port) ↔ Unread node input port := by
  unfold routerResult
  cases accepted : routeRules node with
  | error error =>
      refine iff_of_false (fun same => ?_) ?_
      · unfold routeRules at accepted
        split at accepted
        · contradiction
        · exact mapError_ne_missing accepted (fun _ => nofun) (Except.error.inj same)
      · rintro ⟨_, rules, _, _, _, read, _⟩
        rw [accepted] at read
        contradiction
  | ok rules =>
      exact route_missing_iff.trans (chosen_missing_iff routes branches accepted input port)

end Branching

/-- Whatever is edited in a session, a switch always finds the outputs that it chooses,
and so does a router, with one exception: the editor adds no output for a rule that is
written as an array, and where such a rule decides, its output is there only by chance. -/
theorem Editor.session_routes {graph : Graph} (routes : graph.All Node.Routes) (limit : Nat)
    (commands : List Command) (ids : Ids) :
    ∀ node ∈ ((new graph limit).session commands ids).1.graph.nodes,
      node.templateId = switchTemplate ∨ node.templateId = routerTemplate →
        ∀ maxIterations input, ∃ result,
          Branching.Settles (fun surroundings =>
            Branching.evaluate surroundings maxIterations node input) result ∧
          ∀ port, result = .error (.missingPort port) ↔
            node.templateId = routerTemplate ∧ Branching.Unread node input port := by
  intro node member branches maxIterations input
  have kept := Node.routes_lasting.session routes limit (fun _ _ => trivial) ids node member
  rcases branches with switches | routing
  · have other : node.templateId ≠ routerTemplate := by
      rw [switches]
      decide
    refine ⟨_, (Branching.switch_settles node input).congr fun surroundings => ?_, fun port =>
      iff_of_false (Branching.switchResult_ne_missing kept switches input port) fun given =>
        other given.1⟩
    rw [Branching.evaluate, switches, if_neg (by decide), if_pos rfl]
  · refine ⟨_, (Branching.router_settles node input).congr fun surroundings => ?_, fun port =>
      (Branching.routerResult_missing_iff kept routing input port).trans
        (and_iff_right routing).symm⟩
    rw [Branching.evaluate, routing, if_neg (by decide), if_neg (by decide), if_neg (by decide),
      if_neg (by decide), if_pos rfl]

/-- A router whose only rule, which always holds, is written as an array. -/
def straying : List Command :=
  [ .add "memory-router" .origin,
    .configure (Uuid.name 0) "rules" (.array [.array [.string "true", .string "elsewhere"]]),
    .duplicate (Uuid.name 0), .undo, .redo ]

/-- What its nodes say in surroundings where nothing else happens. -/
def strayingMessages : List String :=
  ((Editor.new ⟨.nil, "straying", [], []⟩ 5).session straying ⟨0⟩).1.graph.nodes.map fun node =>
    let alone : Surroundings Id := ⟨fun _ _ _ => [], fun _ => ()⟩
    match Branching.evaluate alone 8 node .null with
    | .ok _ => ""
    | .error error => error.message

theorem session_of_straying_routes :
    Graph.All ⟨.nil, "straying", [], []⟩ Node.Routes ∧
    ∀ node ∈ ((Editor.new ⟨.nil, "straying", [], []⟩ 5).session straying ⟨0⟩).1.graph.nodes,
      node.templateId = switchTemplate ∨ node.templateId = routerTemplate →
        ∃ result, Branching.Settles
          (fun surroundings => Branching.evaluate surroundings 8 node .null) result ∧
          ∀ port, result = .error (.missingPort port) ↔
            node.templateId = routerTemplate ∧ Branching.Unread node .null port := by
  have routes : Graph.All ⟨.nil, "straying", [], []⟩ Node.Routes := nofun
  exact ⟨routes, fun node member branches =>
    Editor.session_routes routes 5 straying ⟨0⟩ node member branches 8 .null⟩

theorem session_of_straying_lacks_output :
    strayingMessages =
      [ "invalid config: no output port 'elsewhere' for the selected route",
        "invalid config: no output port 'elsewhere' for the selected route" ] := by
  decide +kernel

end Workflow
