import SpecServer.Uri.Parser
set_option autoImplicit false

/-!
The form of a document's URI under which everything about the document is kept: an escaped colon behind the
drive is decoded, and the letter of a drive is in lower case.
-/

namespace SpecServer.Uri

/-- The text with its first escaped colon decoded, in upper case and then in lower case. -/
def decodeColons (text : List Char) : List Char :=
  Text.replaceFirst ['%', '3', 'a'] [':'] (Text.replaceFirst ['%', '3', 'A'] [':'] text)

def lowerDrive (path : List Char) : List Char :=
  match path with
  | '/' :: c :: ':' :: rest => '/' :: Text.asciiLower c :: ':' :: rest
  | _ => path

def withLowerDrive (uri : Uri) : Uri :=
  if lowerDrive uri.path = uri.path then uri
  else { uri with path := (pathBehind uri.kind (builder uri.authority []) (lowerDrive uri.path)).1.path }

def normalize (uri : Uri) : Uri :=
  withLowerDrive ((parse (String.ofList (decodeColons uri.text))).toOption.getD uri)

end SpecServer.Uri
