import SpecServer.Cursor
import SpecServer.Diagnostic
import SpecServer.Json.Basic
import SpecServer.Workspace.Questions
set_option autoImplicit false

/-!
How values of the editor protocol look as JSON.
-/

namespace SpecServer.Protocol

def natural (n : Nat) : Json := .number (.integer n)

def uri (u : Uri) : Json := .string u.render

def position (place : Text.Position) : Json :=
  .object [("character", natural place.character), ("line", natural place.line)]

def span (range : Span) : Json :=
  .object [("end", position range.stop), ("start", position range.start)]

def optionalField (name : String) (value : Option Json) : List (String × Json) :=
  (value.map fun v => (name, v)).toList

def diagnostic (d : Diagnostic) : Json :=
  .object ([("message", .string d.message), ("range", span d.span)] ++
    optionalField "severity" (d.severity.map fun s => natural s.code) ++ optionalField "source" (d.source.map .string))

def content : Cursor.Content → Json
  | .yaml text => .object [("language", .string "yaml"), ("value", .string text)]
  | .text text => .string text

/-- What the editor shows at the cursor; nothing is `null`. -/
def hover (contents : List Cursor.Content) : Json :=
  if contents.isEmpty then .null else .object [("contents", .array (contents.map content))]

def location (found : Location) : Json :=
  .object [("range", span found.span), ("uri", uri found.uri)]

/-- Where something is defined: nowhere is `null`, and a single place stands without an array. -/
def locations (found : List Location) : Json :=
  match found with
  | [] => .null
  | [single] => location single
  | several => .array (several.map location)

/-- The sources of a merged definition under the display of their paths. -/
def sources (definition : Definition) : Entries String Json :=
  Entries.ofList (definition.sources.map fun entry => (entry.1.display, uri entry.2.editorForm))

def definition (merged : Definition) : Json :=
  .object [("openapiDefinition", merged.document), ("openapiDefinitionMap", .object (sources merged))]

end SpecServer.Protocol
