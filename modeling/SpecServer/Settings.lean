import SpecServer.Json.Shape
set_option autoImplicit false

/-!
The settings that the editor sends, and how they are read. A payload may leave anything out.
-/

namespace SpecServer

inductive InformationSeverity where
  | warning
  | information
deriving DecidableEq, Repr, Inhabited

def InformationSeverity.word : InformationSeverity → String
  | warning => "warning"
  | information => "information"

structure Settings where
  maxNumberOfProblems : Nat
  information : Bool
  verbose : Bool
  debug : Bool
  runtimeId : Option String
  minimumVersion : Option String
  configuration : Json
  informationSeverity : InformationSeverity
deriving DecidableEq

namespace Settings

def initial : Settings :=
  { maxNumberOfProblems := 0, information := false, verbose := false, debug := false, runtimeId := none
    minimumVersion := none, configuration := .null, informationSeverity := .warning }

instance : Inhabited Settings := ⟨initial⟩

def engineFields : List (String × Presence × Shape) :=
  [("maxNumberOfProblems", .defaulted, .natural "usize" (Nat.pow 2 64)), ("information", .defaulted, .bool),
    ("verbose", .defaulted, .bool), ("debug", .defaulted, .bool), ("runtimeId", .defaulted, .option .text),
    ("minimumAutoRestVersion", .defaulted, .option .text), ("configuration", .defaulted, .any),
    ("informationSeverity", .defaulted, .word ["warning", "information"])]

def shape : Shape :=
  .record "struct Settings" [("autorest", .defaulted, .record "struct EngineSettings" engineFields)]

def ofEngine (engine : Json) : Settings :=
  { maxNumberOfProblems := engine.naturalAt "maxNumberOfProblems"
    information := engine.boolAt "information"
    verbose := engine.boolAt "verbose"
    debug := engine.boolAt "debug"
    runtimeId := engine.textAt? "runtimeId"
    minimumVersion := engine.textAt? "minimumAutoRestVersion"
    configuration := engine.valueAt "configuration"
    informationSeverity :=
      if engine.textAt "informationSeverity" = "information" then .information else .warning }

def ofStandard (payload : Json) : Settings :=
  ofEngine (payload.valueAt "autorest")

/-- Reads a payload; without one the initial settings are in force. -/
def read (payload : Json) : Except ShapeError Settings :=
  if payload.isNull then .ok initial else (shape.read payload).map ofStandard

def optionalText (text : Option String) : Json :=
  (text.map Json.string).getD .null

def toJson (settings : Settings) : Json :=
  .object [("autorest", .object (Entries.ofList [
    ("maxNumberOfProblems", .number (.integer settings.maxNumberOfProblems)),
    ("information", .bool settings.information),
    ("verbose", .bool settings.verbose),
    ("debug", .bool settings.debug),
    ("runtimeId", optionalText settings.runtimeId),
    ("minimumAutoRestVersion", optionalText settings.minimumVersion),
    ("configuration", settings.configuration),
    ("informationSeverity", .string settings.informationSeverity.word)]))]

def anyVersion : String := "latest-installed"

def requestedVersion (settings : Settings) : String :=
  settings.minimumVersion.getD anyVersion

/-- How many problems a file may show, if that is limited. -/
def problemLimit (settings : Settings) : Option Nat :=
  if settings.maxNumberOfProblems = 0 then none else some settings.maxNumberOfProblems

end Settings

end SpecServer
