import ToolPlan.Json.Printer
import ToolPlan.Plan.Json
import ToolPlan.Tool

/-!
The journal of a run: everything it did, in order. The trace, the calls that tools saw and the
messages for a log are views of it.
-/

namespace ToolPlan

/-- An entry of the trace, which is the public account of a run. -/
inductive TraceEntry where
  | assigned (name : String) (value : Value)
  | called (name : String) (args : Entries Value) (capture : Option String) (result : Value)
  | branched (condition : Condition) (outcome : Bool)
  | iterated (var : String) (index : Nat) (value : Value)
  | returned (value : Value)

/-- What a run did. `step` is a counted step, `calling` the intent to call a tool, `invoked` what the
tool saw and answered, `looping` the start of a loop, and `traced` an entry of the trace. -/
inductive Event where
  | step
  | blank
  | calling (name : String) (place : Position) (dry : Bool)
  | invoked (name : String) (args : Entries Value) (outcome : Except ToolError Value)
  | looping (var : String)
  | traced (entry : TraceEntry)

/-- The levels of a log, from the gravest. -/
inductive LogLevel where
  | error | warn | info | debug
  deriving DecidableEq, Repr

namespace LogLevel

def label : LogLevel → String
  | error => "ERROR"
  | warn => "WARN"
  | info => "INFO"
  | debug => "DEBUG"

def rank : LogLevel → Nat
  | error => 1
  | warn => 2
  | info => 3
  | debug => 4

end LogLevel

structure LogLine where
  level : LogLevel
  text : String
  deriving DecidableEq, Repr

namespace TraceEntry

/-- The kind of an entry, as readers see it. -/
def kind : TraceEntry → String
  | assigned .. => "LET"
  | called .. => "CALL"
  | branched .. => "IF"
  | iterated .. => "FOR_ITER"
  | returned .. => "RETURN"

/-- What an entry tells besides its kind. -/
def info : TraceEntry → List (String × Value)
  | assigned name value => [("name", .string name), ("value", value)]
  | called name args capture result =>
    [("name", .string name), ("args", .map args), ("capture", Value.ofText? capture),
     ("result", result)]
  | branched condition outcome => [("condition", condition.toValue), ("outcome", .bool outcome)]
  | iterated var index value => [("var", .string var), ("index", .int index), ("value", value)]
  | returned value => [("value", value)]

def toValue (entry : TraceEntry) : Value :=
  .map [("kind", .string entry.kind), ("info", .map entry.info)]

/-- The message of an entry. A call is announced before it is made, and not again after it. -/
def logText? : TraceEntry → Option String
  | assigned name value => some s!"LET {name} = {Json.compact value}"
  | called .. => none
  | branched _ outcome => some s!"IF -> {outcome}"
  | iterated var index value => some s!"FOR {var}[{index}] = {Json.compact value}"
  | returned value => some s!"RETURN {Json.compact value}"

end TraceEntry

namespace Event

def traceEntry? : Event → Option TraceEntry
  | traced entry => some entry
  | _ => none

/-- What a tool saw and answered, if the event is a call of one. -/
def invocation? : Event → Option (String × Entries Value × Except ToolError Value)
  | invoked name args outcome => some (name, args, outcome)
  | _ => none

/-- The message of an event, if it has one. -/
def logLine? : Event → Option LogLine
  | calling name place dry =>
    let how := if dry then " (dry run)" else s!" at {place.line}:{place.column}"
    some ⟨.debug, "CALL " ++ name ++ how⟩
  | traced entry => entry.logText?.map fun text => ⟨.debug, text⟩
  | _ => none

end Event

end ToolPlan
