import SpecServer.Json.Writer
import SpecServer.Settings
set_option autoImplicit false

/-!
The lines of the log: how they look, and which of them the editor gets.
-/

namespace SpecServer

inductive LogLevel where
  | information
  | verbose
  | debug
  | warning
  | error
deriving DecidableEq, Repr

structure LogLine where
  level : LogLevel
  text : String
deriving DecidableEq, Repr

structure Clock where
  hour : Nat
  minute : Nat
  second : Nat
  millisecond : Nat
deriving DecidableEq, Repr

namespace Clock

def padded (width n : Nat) : String :=
  let digits := toString n
  String.ofList (List.replicate (width - digits.length) '0') ++ digits

/-- The time as it stands in a line; the milliseconds have four digits. -/
def text (clock : Clock) : String :=
  padded 2 clock.hour ++ ":" ++ padded 2 clock.minute ++ ":" ++ padded 2 clock.second ++ "." ++
    padded 4 clock.millisecond

end Clock

namespace LogLine

def lead : LogLevel → String
  | .information => "INFO: "
  | .verbose => ""
  | .debug => "DEBUG: "
  | .warning => "WARN: "
  | .error => "ERROR: "

/-- The line with its time. The text of an error is quoted, so that it stays on one line. -/
def render (clock : String) (line : LogLine) : String :=
  let body := if line.level = .error then (Json.string line.text).render else line.text
  "[" ++ lead line.level ++ clock ++ "] " ++ body

/-- Whether the editor gets the line: warnings and errors always, all others only on demand. -/
def isShown (settings : Settings) (line : LogLine) : Bool :=
  match line.level with
  | .information => settings.information
  | .verbose => settings.verbose
  | .debug => settings.debug
  | .warning => true
  | .error => true

end LogLine

end SpecServer
