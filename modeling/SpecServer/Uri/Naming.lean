import SpecServer.Text.Case
import SpecServer.Uri.Normal
set_option autoImplicit false

/-!
What the URI of a document says about it: its folder, its extension, the configuration generated for it, and
the name the editor knows it by.
-/

namespace SpecServer.Uri

def folder (uri : Uri) : Uri :=
  (uri.join ".").toOption.getD uri

/-- The text of the configuration that is generated for a document: a file in a folder of the document's own
name, so that each document has another one. -/
def generatedText (document : Uri) : String :=
  String.ofList (Text.dropEndWhile (· == '/') document.text) ++ "/readme.md"

def generated (document : Uri) : Except UriError Uri :=
  (parse (generatedText document)).map normalize

def extension? (uri : Uri) : Option String :=
  match (uri.segments?.bind List.getLast?).bind (Text.splitLast '.') with
  | some (_, extension) =>
    if extension.isEmpty then none else some (String.ofList (extension.map Text.asciiLower))
  | none => none

def isLiterateExtension (extension : String) : Bool :=
  ["md", "markdown"].contains extension

/-- The URI that the editor uses. Unsaved documents have no slashes there. -/
def editorForm (uri : Uri) : Uri :=
  match Text.after? "untitled://".toList uri.text with
  | some rest => (parse ("untitled:" ++ String.ofList rest)).toOption.getD uri
  | none => uri

end SpecServer.Uri
