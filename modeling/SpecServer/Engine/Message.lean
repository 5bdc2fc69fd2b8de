import SpecServer.Uri.Normal
set_option autoImplicit false

/-!
What the engine reports: findings in documents and lines for the log.
-/

namespace SpecServer

/-- The kind of a message. The first three are findings. -/
inductive Channel where
  | information
  | warning
  | error
  | debug
  | verbose
  | fatal
deriving DecidableEq, Repr

/-- A place in a document: the line counts from one, the column from zero. -/
structure SourcePosition where
  line : Nat
  column : Nat
deriving DecidableEq, Repr

structure SourceRange where
  document : String
  start : SourcePosition
  stop : SourcePosition
deriving DecidableEq, Repr

/-- A finding or a line for the log. The key says which rule a finding comes from. A message is endless if the search
for its place does not end: then it never comes about, and neither does what should follow it. -/
structure Message where
  channel : Channel
  text : String
  plugin : Option String
  key : List String
  ranges : List SourceRange
  endless : Bool
deriving DecidableEq, Repr

namespace Message

def validator : String := "azure-validator"

def plain (channel : Channel) (text : String) : Message := ⟨channel, text, none, [], [], false⟩

def onRange (channel : Channel) (text : String) (range : SourceRange) : Message :=
  ⟨channel, text, none, [], [range], false⟩

def onFound (channel : Channel) (text : String) (range : Option SourceRange) : Message :=
  ⟨channel, text, none, [], range.toList, range.isNone⟩

/-- The messages of a pass, unless it comes to a search that does not end. -/
def settled? (messages : List Message) : Option (List Message) :=
  if messages.any endless then none else some messages

end Message

structure ReadFailure where
  uri : Uri
  reason : String
deriving DecidableEq, Repr

def ReadFailure.message (failure : ReadFailure) : String :=
  "Failed to load '" ++ failure.uri.render ++ "' (" ++ failure.reason ++ ")"

inductive EngineError where
  | notAcquired (requested : String)
  | discovery (folder : Uri) (error : UriError)
  | configurationMissing (uri : Uri)
  | configurationNoMapping (uri : Uri)
  | unparsable (uri : Uri) (reason : String)
  | unreadable (failure : ReadFailure)
deriving DecidableEq, Repr

end SpecServer
