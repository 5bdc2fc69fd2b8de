import SpecServer.Engine.Message
import SpecServer.Engine.Version
import SpecServer.Text.Case
set_option autoImplicit false

/-!
The engine that all contexts share: whether it was acquired, and which documents it handles.
-/

namespace SpecServer

def EngineError.message : EngineError → String
  | notAcquired requested =>
    "Unable to acquire engine runtime '" ++ requested ++ "': the built-in runtime is version " ++ Version.builtin.text
  | discovery folder error => "Configuration discovery failed in " ++ folder.render ++ ": " ++ error.message
  | configurationMissing uri => "Invalid configuration " ++ uri.render ++ ": configuration document not found"
  | configurationNoMapping uri => "Invalid configuration " ++ uri.render ++ ": configuration is not a mapping"
  | unparsable uri reason => "Unable to parse " ++ uri.render ++ ": " ++ reason
  | unreadable failure => failure.message

/-- The engine; it has a version once it was acquired. -/
structure Engine where
  version : Option Version
deriving DecidableEq, Repr

namespace Engine

def idle : Engine := ⟨none⟩

/-- Acquires the engine. A request that it does not meet changes nothing. -/
def acquire (engine : Engine) (requested : String) : Except EngineError Unit × Engine :=
  if Version.meets requested then (.ok (), ⟨some .builtin⟩) else (.error (.notAcquired requested), engine)

def lowered (language : String) : String :=
  String.ofList (language.toList.map Text.asciiLower)

def isConfigurationLanguage (language : String) : Bool :=
  ["markdown", "md"].contains (lowered language)

def isSpecificationLanguage (language : String) : Bool :=
  ["json", "yaml", "yml", "markdown", "md"].contains (lowered language)

end Engine

end SpecServer
