import SpecServer.Engine.Message
import SpecServer.Literate
import SpecServer.Locate
import SpecServer.Rules
import SpecServer.Uri.Naming
set_option autoImplicit false

/-!
Reading an input as its extension says, and the findings in it that need no other document.
-/

namespace SpecServer.Input

/-- Reads the text of a document: JSON, literate, or YAML for all other extensions. -/
def parse (uri : Uri) (text : String) : Except Literate.LiterateError Json :=
  let extension := uri.extension?
  if extension = some "json" then
    match Json.read text with
    | .ok document => .ok document
    | .error error => .error ⟨error.message, error.line, error.column⟩
  else if extension.any Uri.isLiterateExtension then Literate.read text
  else Literate.structured text.toList 0

/-- The range of the key of a node, or the first character of the document, if the search for it ends. -/
def rangeOf (uri : Uri) (text : String) (path : Path) : Option SourceRange :=
  (Locate.place? text path).map fun found =>
    let place := found.getD .start
    let width := (path.lastKey?.map String.length).getD 1
    ⟨uri.render, ⟨place.line + 1, place.character⟩, ⟨place.line + 1, place.character + width⟩⟩

def unparsable (uri : Uri) (error : Literate.LiterateError) : Message :=
  let column := error.column - 1
  .onRange .error error.message ⟨uri.render, ⟨error.line, column⟩, ⟨error.line, column + 1⟩⟩

/-- The message about a document that does not say which format it follows. -/
def formatless (uri : Uri) (text : String) : Message :=
  .onFound .warning "Document has neither a 'swagger' nor an 'openapi' field" (rangeOf uri text Path.root)

def ruleMessage (uri : Uri) (text : String) (violation : Violation) : Message :=
  { Message.onFound .warning violation.message (rangeOf uri text violation.path) with
    plugin := some Message.validator
    key := [violation.rule.id, violation.rule.name] }

/-- The findings in a document; the rules are checked only on demand. -/
def check (uri : Uri) (text : String) (document : Json) (validate : Bool) : List Message :=
  (if Literate.namesFormat document then [] else [formatless uri text]) ++
    (if validate then (Rule.violations document).map (ruleMessage uri text) else [])

end SpecServer.Input
