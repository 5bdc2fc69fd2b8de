import SpecServer.Uri.Naming
set_option autoImplicit false

/-!
Paths of files, as bytes with a slash before each name, and the URIs of folders.
-/

namespace SpecServer.Uri

/-- Whether some bytes end with a drive: a letter and a colon or a vertical bar. -/
def endsWithDrive (bytes : List UInt8) : Bool :=
  match bytes.reverse with
  | mark :: letter :: _ :: _ =>
    (mark.toNat == 58 || mark.toNat == 124) && isLetter (Char.ofNat letter.toNat) && letter.toNat < 128
  | _ => false

/-- The path of the file that a URI names. Only the own computer has one; a drive at the end is a folder. -/
def filePath? (uri : Uri) : Option (List UInt8) :=
  let host := (uri.authority.map Authority.host).getD []
  match uri.segments? with
  | none => none
  | some segments =>
    if host.isEmpty || host == "localhost".toList then
      let bytes := segments.flatMap fun segment => UInt8.ofNat 47 :: percentDecode segment
      some (if endsWithDrive bytes then bytes ++ [UInt8.ofNat 47] else bytes)
    else none

/-- The names of a path, without empty ones and without the dots that stay in place. -/
def pathNames (path : List Char) : List (List Char) :=
  (Text.splitAt '/' path).filter fun name => !name.isEmpty && name != ['.']

def ofFolder? (path : String) : Option Uri :=
  match path.toList with
  | '/' :: rest =>
    let names := (pathNames rest).flatMap fun name => '/' :: percentEncode .fileName name
    some { scheme := fileScheme, authority := some noHost, path := names ++ ['/'], query := none, fragment := none }
  | _ => none

def pathText (bytes : List UInt8) : List Char :=
  Text.Utf8.decodeLossy bytes

/-- The path with the extension of its last name replaced. A dot at the start of the name starts no
extension. -/
def withJsonExtension (bytes : List UInt8) : List UInt8 :=
  let name := (bytes.reverse.takeWhile (· != UInt8.ofNat 47)).reverse
  let dotted := (name.reverse.dropWhile (· != UInt8.ofNat 46)).reverse.dropLast
  let kept := if dotted.isEmpty then name else dotted
  bytes.take (bytes.length - name.length) ++ kept ++ Text.Utf8.encode ".json".toList

/-- The file that holds the JSON form of a literate document: its name has another extension. -/
def shadowPath? (uri : Uri) : Option (List UInt8) :=
  match uri.extension? with
  | none => none
  | some extension =>
    if isLiterateExtension extension then (filePath? uri).map fun bytes => withJsonExtension bytes else none

end SpecServer.Uri
