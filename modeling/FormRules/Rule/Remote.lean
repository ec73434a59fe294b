import FormRules.Context.Basic
import FormRules.Json.Reader
import FormRules.Json.Sendable
import FormRules.Json.Writer
import FormRules.Rule.Outcome
import FormRules.Text.Sigma
import FormRules.Value.Arithmetic

/-!
Rules that ask another party. A value is accepted only if the answer says so in so many words; whatever
else comes back, or does not come back, is a failure. Within a pass the outcome of a question may be kept
and is then not asked for again.
-/

namespace FormRules.Rule

structure Request where
  method : String
  address : String
  body : Value
  timeout : Number.Binary64

/-- What becomes of a request. -/
inductive Reply where
  | answer (status : Int) (body : String)
  | timeout
  | unreachable
  | broken

/-- The other party: it answers a request in view of those that came before. -/
abbrev Transport := List Request → Request → Reply

/-- Nobody can be reached. -/
def Transport.offline : Transport := fun _ _ => .unreachable

/-- The traffic of a pass: the requests made, and the outcomes that are kept. -/
structure Traffic where
  requests : List Request := []
  kept : List (String × Outcome) := []

/-- A question to be asked. -/
structure Question where
  address : Value
  method : String
  timeout : Value
  payload : Fields

namespace Question

/-- The question of a rule about a value; a rule without an address has none. -/
def ofRule (value : Value) (rule : Fields) (settings : Settings) : Except Fault Question := do
  let method ← ((Fields.get rule "apiMethod").orElse (.text "POST")).asText "upper"
  let timeout := ((Fields.get rule "apiTimeout").orElse (.int settings.timeout)).orElse (.int 5000)
  match (Fields.get rule "apiPayload").orElse (.object []) with
  | .object more => return {
      address := Fields.get rule "apiEndpoint"
      method := Text.upper method
      timeout
      payload := Keyed.merge [(.text "value", value)] more }
  | other => throw (.type (.notMapping other.kind))

/-- The text under which the outcome of a question is kept. -/
def key (question : Question) : Except Fault String := do
  let parts := [question.address, .text question.method, .object question.payload]
  return "async:" ++ (← Json.canonical true (.list parts))

/-- Seconds to wait for an answer. -/
def seconds (question : Question) : Except Fault Number.Binary64 := do
  match ← question.timeout.div (.int 1000) with
  | .float x => return x
  | other => throw (.type (.notWhole other.kind))

/-- The request that asks a question. Only a question that is posted has a body. -/
def request (question : Question) (timeout : Number.Binary64) : Except Fault Request := do
  let body := if question.method == "POST" then .object question.payload else .null
  match question.address with
  | .text address =>
    Json.checkSendable body
    return ⟨question.method, address, body, timeout⟩
  | other => throw (.type (.notAddress other.kind other.quotedText))

end Question

/-- The outcome that the body of an answer stands for. -/
def judgeBody (rule : Fields) (body : String) : Outcome :=
  let failed : Outcome := .failure rule "External validation failed"
  match Json.ofText body with
  | .ok (.object fields) =>
    if (Fields.get fields "valid").truthy then .pass
    else { failed with error := (Fields.get fields "message").orElse failed.error }
  | _ => failed

/-- The outcome that a reply stands for. -/
def judge (rule : Fields) : Reply → Except Fault Outcome
  | .timeout => .ok (.failure rule "External validation timed out")
  | .unreachable => .ok (.failure rule "External validation error")
  | .broken => .error (.value .transport)
  | .answer status body =>
    .ok (if 200 ≤ status && status < 300 then judgeBody rule (Json.withoutMark body)
      else .failure rule "External validation failed")

/-- Asks a question. There is no request if there is no time for it. -/
def ask (transport : Transport) (rule : Fields) (question : Question) (traffic : Traffic) :
    Except Fault Outcome × Traffic :=
  match question.seconds with
  | .error fault => (.error fault, traffic)
  | .ok timeout =>
    if Comparison.lessEqual.numbers (.float timeout) (.int 0) then (judge rule .timeout, traffic)
    else
      match question.request timeout with
      | .error fault => (.error fault, traffic)
      | .ok request =>
        (judge rule (transport traffic.requests request),
          { traffic with requests := traffic.requests ++ [request] })

/-- Asks a question unless the outcome is kept from before. -/
def askOnce (transport : Transport) (rule : Fields) (question : Question) (traffic : Traffic) :
    Except Fault Outcome × Traffic :=
  match question.key with
  | .error fault => (.error fault, traffic)
  | .ok key =>
    match traffic.kept.lookup key with
    | some outcome => (.ok outcome, traffic)
    | none =>
      match ask transport rule question traffic with
      | (.ok outcome, traffic) => (.ok outcome, { traffic with kept := (key, outcome) :: traffic.kept })
      | (.error fault, traffic) => (.error fault, traffic)

def checkRemote (transport : Transport) (value : Value) (rule : Fields) (context : Context)
    (traffic : Traffic) : Except Fault Outcome × Traffic :=
  if !(Fields.get rule "apiEndpoint").truthy then (.ok .pass, traffic)
  else
    match Question.ofRule value rule context.settings with
    | .error fault => (.error fault, traffic)
    | .ok question =>
      if context.caching then askOnce transport rule question traffic
      else ask transport rule question traffic

end FormRules.Rule
