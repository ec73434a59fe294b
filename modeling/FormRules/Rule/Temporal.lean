import FormRules.Context.Basic
import FormRules.Rule.Outcome
import FormRules.Value.Span

/-!
Rules that depend on the time of a pass: from a moment on, up to a moment, on some days of the week, and
at some times of the day.
-/

namespace FormRules.Rule

/-- A moment that a rule gives; one without an offset is at the zero meridian. -/
def moment? (value : Value) : Except Fault (Option Moment) :=
  match value with
  | .moment m => .ok (some m.placed)
  | .text s => if s.isEmpty then .ok none else (Moment.ofTextOrFault s).map fun m => some m.placed
  | _ => .ok none

/-- What a rule says of a pass that is too early for it, a span of grace allowed for. -/
def early? (now : Moment) (grace : Int) : Option Moment → Except Fault (Option String)
  | none => .ok none
  | some start =>
    match start.before? grace with
    | none => .error (.overflow .date)
    | some first =>
      .ok (if now.instant < first then some s!"This field is not valid until {start.isoText}" else none)

/-- What a rule says of a pass that is too late for it. -/
def late? (now : Moment) : Option Moment → Option String
  | none => none
  | some stop =>
    if stop.instant < now.instant then some s!"This field expired on {stop.isoText}" else none

/-- Whether a time lies in the first range that it lies in; later ranges are not looked at. -/
def inAnyRange (now : Moment) : List Value → Except Fault Bool
  | [] => .ok false
  | range :: ranges => do
    let text ← range.asText "partition"
    match Clock.inRange now.time text with
    | .ok inside => if inside then return true else inAnyRange now ranges
    | .error cause => throw (.value (.clock cause))

/-- Whether a day of the week, Sunday being 0, is among some days; without any, every day is. -/
def onDay (now : Moment) (days : Value) : Except Fault Bool :=
  if days.isNull then .ok true else (Value.int now.date.weekday).heldBy days

def atTime (now : Moment) (ranges : Value) : Except Fault Bool :=
  if ranges.truthy then do inAnyRange now (← ranges.items) else .ok true

def checkSchedule (now : Moment) (rule schedule : Fields) : Except Fault Outcome := do
  if !(← onDay now (Fields.get schedule "daysOfWeek")) then
    return .failure rule "This field is not available today"
  else if ← atTime now (Fields.get schedule "timeRanges") then return .pass
  else return .failure rule "This field is not available at this time"

def checkTemporal (rule : Fields) (context : Context) : Except Fault Outcome := do
  let now := context.timestamp.placed
  let start? ← moment? (Fields.get rule "validFrom")
  let stop? ← moment? (Fields.get rule "validUntil")
  let grace ← ((Fields.get rule "gracePeriod").orElse (.int 0)).spanMicros
  match ← early? now grace start?, late? now stop? with
  | some message, _ => return .failure rule message
  | none, some message => return .failure rule message
  | none, none => checkSchedule now rule (← ((Fields.get rule "schedule").orElse (.object [])).asObject)

end FormRules.Rule
