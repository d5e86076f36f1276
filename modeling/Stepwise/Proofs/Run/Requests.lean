import Stepwise.Proofs.Ordered
import Stepwise.Proofs.Run.FilledForms

/-!
# What a request carries

Of the entries of a call the literal ones are sent and no others. The other entries can be put in,
taken out, moved or changed, in calls at any depth of a workflow, and no run is different for it.
-/

namespace Stepwise

/-! ## Entries put into a map -/

namespace KeyValueEntry

variable {α : Type}

/-- Entries are put into a map one after another: the keys come in the order in which they occur
first, and under each of them is what is taken of the last value given for it. -/
structure PutInto (entries : List KeyValueEntry) (Takes : Json → α → Prop) (map : Ordered α) :
    Prop where
  keys : map.keys = (entries.map key).eraseDups
  last : ∀ before e after, entries = before ++ e :: after → e.key ∉ after.map key →
    ∃ a, map.find? e.key = some a ∧ Takes e.value a

theorem putInto_ofPairs (entries : List KeyValueEntry) {Takes : Json → α → Prop} {f : Json → α}
    (hf : ∀ v, Takes v (f v)) :
    PutInto entries Takes (Ordered.ofPairs (entries.map fun e => (e.key, f e.value))) where
  keys := by
    rw [Ordered.keys_ofPairs, List.map_map]
    rfl
  last := by
    rintro before e after rfl hlast
    refine ⟨f e.value, ?_, hf e.value⟩
    rw [List.map_append, List.map_cons]
    apply Ordered.find?_setAll_of_last
    rw [Ordered.keys, List.map_map]
    exact hlast

theorem putInto_headers (entries : List KeyValueEntry) :
    PutInto (literals entries) Json.ShownAs (headers entries) :=
  putInto_ofPairs _ Json.shownAs_fieldText

theorem putInto_body (entries : List KeyValueEntry) :
    PutInto (literals entries) Eq (body entries) :=
  putInto_ofPairs (f := id) _ fun _ => rfl

theorem literals_literals (entries : List KeyValueEntry) :
    literals (literals entries) = literals entries := by
  simp only [literals, List.filter_filter, Bool.and_self]

end KeyValueEntry

open KeyValueEntry (literals PutInto)

/-! ## The request of a call -/

theorem ApiCall.request?_of_method {call : ApiCall} {method : HttpMethod}
    (h : call.api.method = .get ∧ method = .get ∨ call.api.method = .post ∧ method = .post) :
    call.request? = some ⟨method, call.api.url, KeyValueEntry.headers call.headers,
      KeyValueEntry.body call.api.body⟩ := by
  rcases h with ⟨hmethod, rfl⟩ | ⟨hmethod, rfl⟩
  · rw [request?, hmethod]
  · rw [request?, hmethod]

theorem ApiCall.request?_eq_none {call : ApiCall} (hget : call.api.method ≠ .get)
    (hpost : call.api.method ≠ .post) : call.request? = none := by
  cases hmethod : call.api.method with
  | get => exact absurd hmethod hget
  | post => exact absurd hmethod hpost
  | unsupported => rw [request?, hmethod]

/-! ## Literal entries alone -/

/-- The call with its literal entries alone. -/
def ApiCall.literalOnly (call : ApiCall) : ApiCall :=
  ⟨⟨call.api.url, call.api.method, literals call.api.body⟩, literals call.headers⟩

theorem ApiCall.request?_literalOnly (call : ApiCall) :
    call.literalOnly.request? = call.request? := by
  simp only [request?, literalOnly, KeyValueEntry.headers, KeyValueEntry.body,
    KeyValueEntry.literals_literals]

def Task.literalOnly : Task → Task
  | .apiCall call => .apiCall call.literalOnly
  | task => task

namespace Step

mutual

/-- The step, with literal entries alone in all calls. -/
def literalOnly : Step → Step
  | .task h t => .task h t.literalOnly
  | .branch h condition steps => .branch h condition (literalOnlyAll steps)
  | .unknown h type config => .unknown h type config

def literalOnlyAll : List Step → List Step
  | [] => []
  | step :: rest => step.literalOnly :: literalOnlyAll rest

end

end Step

namespace Collaborators

variable {σ β : Type} (c : Collaborators σ β)

theorem callApi_literalOnly (call : ApiCall) : c.callApi call.literalOnly = c.callApi call := by
  rw [callApi, callApi, call.request?_literalOnly]

theorem callApi_congr {call call' : ApiCall} (h : call.literalOnly = call'.literalOnly) :
    c.callApi call = c.callApi call' := by
  rw [← callApi_literalOnly, h, callApi_literalOnly]

theorem perform_literalOnly (object : String) (task : Task) (pool : Pool) :
    c.perform object task.literalOnly pool = c.perform object task pool := by
  cases task with
  | apiCall call => exact c.callApi_literalOnly call
  | findRecord condition => rfl
  | createPdf settings => rfl
  | sendEmail settings => rfl
  | updateRecord settings => rfl

mutual

theorem runStep_literalOnly : ∀ (step : Step) (p : Progress),
    c.runStep step.literalOnly p = c.runStep step p
  | .task h task, p => by
      have hkind : task.literalOnly.kind = task.kind := by cases task <;> rfl
      rw [Step.literalOnly, runStep, runStep, perform_literalOnly, hkind]
  | .branch h condition steps, p => by
      rw [Step.literalOnly, runStep, runStep, runSteps_literalOnly steps]
  | .unknown h type config, p => by
      rw [Step.literalOnly]

/-- Steps do the same with their literal entries alone. -/
theorem runSteps_literalOnly : ∀ (steps : List Step) (p : Progress),
    c.runSteps (Step.literalOnlyAll steps) p = c.runSteps steps p
  | [], p => by rw [Step.literalOnlyAll]
  | step :: rest, p => by
      have hrest : c.runSteps (Step.literalOnlyAll rest) = c.runSteps rest :=
        funext fun q => runSteps_literalOnly rest q
      rw [Step.literalOnlyAll, runSteps, runSteps, hrest, runStep_literalOnly step p]

end

/-- Steps with the same literal entries in their calls run alike and make the same calls. -/
theorem ran_eq_of_literalOnlyAll {xs ys : List Step}
    (h : Step.literalOnlyAll xs = Step.literalOnlyAll ys) (m : Moment σ) :
    c.ran xs m = c.ran ys m := by
  rw [ran, ran, ← runSteps_literalOnly, h, runSteps_literalOnly]

/-! ## The call of an API -/

/-- A supported call makes its request, once, and ends by the answer. -/
theorem run_logged_callApi {call : ApiCall} {request : HttpRequest}
    (hrequest : call.request? = some request) (s : σ) :
    let answer := ((c.request request).run s).1
    let noted := (c.logged.callApi call).run (s, [])
    noted.2.2 = [.request request] ∧
    (∀ v, noted.1 = .ofValue v ↔ ∃ response, answer = .ok response ∧ response.status = 200 ∧
      response.body = v) ∧
    ((¬∃ response, answer = .ok response ∧ response.status = 200) → noted.1 = .failed) := by
  rw [callApi, hrequest]
  simp only [logged, run_bind, run_noting]
  rcases hanswer : (c.request request).run s with ⟨e | response, t⟩
  · simp only [run_pure]
    simp [StepOutcome.ofValue]
  · by_cases hstatus : response.status = 200
    · simp only [hstatus, run_pure]
      simp [StepOutcome.ofValue, hstatus]
    · simp only [hstatus, run_pure]
      simp [StepOutcome.ofValue, hstatus]

/-- Entries that are not literal make no difference: calls with the same address, the same method
and the same literal entries make the same request and have the same outcome, and so a whole run is
the same with other such entries in its calls, at any depth. A call by `get` or `post` makes one
request, by this method and to its address. The headers and the body of the request are the literal
entries put into maps one after another, the headers as texts and the body as it is. The step ends
in the body of a response with status 200 and fails otherwise; with any other method it fails
without a request. -/
theorem only_literal_entries_leave :
    (∀ xs ys : List Step, Step.literalOnlyAll xs = Step.literalOnlyAll ys → ∀ m,
      c.ran xs m = c.ran ys m ∧ c.calls xs m = c.calls ys m) ∧
    (∀ call call' : ApiCall, call.api.url = call'.api.url → call.api.method = call'.api.method →
      literals call.headers = literals call'.headers →
      literals call.api.body = literals call'.api.body → ∀ h m,
      c.performed h (.apiCall call) m = c.performed h (.apiCall call') m ∧
        c.calls [.task h (.apiCall call)] m = c.calls [.task h (.apiCall call')] m) ∧
    ∀ h call m,
      let calls := c.calls [.task h (.apiCall call)] m
      let outcome := (c.performed h (.apiCall call) m).1
      (call.api.method ≠ .get → call.api.method ≠ .post → calls = [] ∧ outcome = .failed) ∧
      ∀ method : HttpMethod, (call.api.method = .get ∧ method = .get ∨
          call.api.method = .post ∧ method = .post) →
        ∃ request : HttpRequest, calls = [.request request] ∧ request.method = method ∧
          request.url = call.api.url ∧
          PutInto (literals call.headers) Json.ShownAs request.headers ∧
          PutInto (literals call.api.body) Eq request.body ∧
          let answer := ((c.request request).run m.state).1
          (∀ v, outcome = .ofValue v ↔ ∃ response, answer = .ok response ∧
            response.status = 200 ∧ response.body = v) ∧
          ((¬∃ response, answer = .ok response ∧ response.status = 200) →
            outcome = .failed) := by
  refine ⟨fun xs ys heq m => ?_, fun call call' hurl hmethod hheaders hbody h m => ?_,
    fun h call m => ?_⟩
  · constructor
    · exact c.ran_eq_of_literalOnlyAll heq m
    · rw [calls, calls, c.logged.ran_eq_of_literalOnlyAll heq]
  · have hsame : call.literalOnly = call'.literalOnly := by
      rw [ApiCall.literalOnly, ApiCall.literalOnly, hurl, hmethod, hheaders, hbody]
    constructor
    · simp only [performed, perform, c.callApi_congr hsame]
    · simp only [calls_task, performed, perform, c.logged.callApi_congr hsame]
  · intro calls outcome
    have hcalls : calls = ((c.logged.callApi call).run (m.state, [])).2.2 := rfl
    have houtcome : outcome = ((c.logged.callApi call).run (m.state, [])).1 :=
      c.performed_logged h (.apiCall call) m
    constructor
    · intro hget hpost
      rw [hcalls, houtcome, callApi, ApiCall.request?_eq_none hget hpost]
      exact ⟨rfl, rfl⟩
    · intro method hmethod
      obtain ⟨hmade, hends⟩ := c.run_logged_callApi (ApiCall.request?_of_method hmethod) m.state
      rw [houtcome]
      exact ⟨_, hcalls.trans hmade, rfl, rfl, KeyValueEntry.putInto_headers call.headers,
        KeyValueEntry.putInto_body call.api.body, hends⟩

/-- Two calls with the same literal entries, among them two for one key, between other entries. -/
theorem other_entries_stay_behind :
    let c : Collaborators (RecordTable × Unit) Unit :=
      { searching .memory .idle with request := fun request => pure (.ok ⟨201, .obj request.body⟩) }
    let body : List KeyValueEntry := [.ofLiteral "k" .null, .ofLiteral "l" (.bool false),
      ⟨.ofVariable, "l", .str "address"⟩, .ofLiteral "k" (.bool true)]
    let call : ApiCall := ⟨⟨"http://a", .post, body⟩, [⟨.ofVariable, "h", .str "address"⟩]⟩
    let call' : ApiCall := ⟨⟨"http://a", .post, ⟨.other, "k", .null⟩ :: literals body⟩, []⟩
    let h : Heading := ⟨"call", "call", ""⟩
    let m : Moment (RecordTable × Unit) := ⟨[], (.ofRecords [], ())⟩
    literals call.headers = literals call'.headers ∧
      literals call.api.body = literals call'.api.body ∧
      ∃ request : HttpRequest, c.calls [.task h (.apiCall call)] m = [.request request] ∧
        c.calls [.task h (.apiCall call')] m = [.request request] ∧
        request.headers.keys = [] ∧ request.body.keys = ["k", "l"] ∧
        request.body.find? "k" = some (.bool true) ∧
        (c.performed h (.apiCall call') m).1 = .failed := by
  intro c body call call' h m
  have hbody : literals call.api.body = literals call'.api.body := rfl
  obtain ⟨-, halike, hcall⟩ := only_literal_entries_leave c
  have hcalls := (halike call call' rfl rfl rfl hbody h m).2
  obtain ⟨request, hmade, -, -, hheaders, hput, -, hfailed⟩ :=
    (hcall h call' m).2 .post (.inr ⟨rfl, rfl⟩)
  refine ⟨rfl, hbody, request, hcalls.trans hmade, hmade, hheaders.keys, hput.keys, ?_, ?_⟩
  · obtain ⟨v, hv, rfl⟩ := hput.last [.ofLiteral "k" .null, .ofLiteral "l" (.bool false)]
      (.ofLiteral "k" (.bool true)) [] rfl (by simp)
    exact hv
  · apply hfailed
    rintro ⟨response, hresponse, hstatus⟩
    obtain rfl := Except.ok.inj hresponse
    cases hstatus

end Collaborators

end Stepwise
