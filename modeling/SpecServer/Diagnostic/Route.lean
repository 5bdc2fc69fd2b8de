import SpecServer.Diagnostic
import SpecServer.Engine.Message
import SpecServer.Settings
import SpecServer.Text.Case
set_option autoImplicit false

/-!
Where the messages of the engine go: findings become diagnostics of the documents they are about, all others
lines of the log.
-/

namespace SpecServer.Route

inductive Line where
  | debug
  | verbose
  | error
deriving DecidableEq, Repr

inductive Destination where
  | diagnostics (found : List (Uri × Diagnostic))
  | log (line : Line) (text : String)
deriving DecidableEq, Repr

/-- The severity of a kind of message, if it is a finding; for information it is the one that was chosen. -/
def severity? (channel : Channel) (chosen : InformationSeverity) : Option Severity :=
  match channel, chosen with
  | .warning, _ => some .warning
  | .error, _ => some .error
  | .information, .warning => some .warning
  | .information, .information => some .information
  | _, _ => none

def lineOf : Channel → Line
  | .debug => .debug
  | .verbose => .verbose
  | _ => .error

def guidelines : String :=
  "https://github.com/Azure/azure-rest-api-specs/blob/current/documentation/openapi-authoring-automated-guidelines.md"

def lowered (text : String) : String :=
  String.ofList (Text.lower text.toList)

/-- Where the rule that a message is about is described, if it is about one. -/
def moreInfo (message : Message) : String :=
  if message.plugin = some Message.validator then
    match message.key with
    | id :: name :: _ => "\n More info: " ++ guidelines ++ "#" ++ lowered name ++ "-" ++ lowered id ++ "\n"
    | _ => ""
  else ""

def documentOf? (range : SourceRange) : Option Uri :=
  let trimmed := Text.dropEndWhile (· == '/') range.document.toList
  ((Uri.parse (String.ofList trimmed)).toOption).map Uri.normalize

def spanOf (range : SourceRange) : Span :=
  ⟨⟨range.start.line - 1, range.start.column⟩, ⟨range.stop.line - 1, range.stop.column⟩⟩

/-- The diagnostic of a message on one of its ranges, with the document it belongs to. -/
def diagnostic? (message : Message) (severity : Severity) (range : SourceRange) : Option (Uri × Diagnostic) :=
  (documentOf? range).map fun uri =>
    (uri,
      { span := spanOf range
        severity := some severity
        source := some ("/".intercalate message.key)
        message := message.text ++ moreInfo message })

def destination (message : Message) (chosen : InformationSeverity) : Destination :=
  match severity? message.channel chosen with
  | some severity => .diagnostics (message.ranges.filterMap (diagnostic? message severity))
  | none => .log (lineOf message.channel) message.text

end SpecServer.Route
