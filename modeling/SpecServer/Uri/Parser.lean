import SpecServer.Text.Blank
import SpecServer.Uri.Path
set_option autoImplicit false

/-!
Reading URIs, on their own or relative to another one. Blanks around the text and tabs and line ends inside
it do not count, and in special schemes a backslash is as good as a slash.
-/

namespace SpecServer.Uri

/-! ## Pieces of the text -/

def unfold (input : List Char) : List Char :=
  input.filter (!isFold ·)

def first? (input : List Char) : Option (Char × List Char) :=
  match input.dropWhile isFold with
  | [] => none
  | c :: rest => some (c, rest)

def isAnySlash (c : Char) : Bool :=
  c == '/' || c == '\\'

def leadingSlashes : List Char → Nat × List Char
  | [] => (0, [])
  | c :: rest =>
    if isAnySlash c then
      let (count, after) := leadingSlashes rest
      (count + 1, after)
    else if isFold c then
      match leadingSlashes rest with
      | (0, _) => (0, c :: rest)
      | found => found
    else (0, c :: rest)

def afterDoubleSlash? (input : List Char) : Option (List Char) :=
  match first? input with
  | some ('/', rest) =>
    match first? rest with
    | some ('/', after) => some after
    | _ => none
  | _ => none

/-- The scheme before the first colon in lower case, and what follows the colon. `read` holds the scheme so
far, the last character first. -/
def schemeFrom? (read : List Char) : List Char → Option (List Char × List Char)
  | [] => none
  | c :: rest =>
    if isFold c then schemeFrom? read rest
    else if c = ':' then if read.isEmpty then none else some (read.reverse, rest)
    else if isLetter c ∨ (!read.isEmpty ∧ (('0' ≤ c ∧ c ≤ '9') ∨ c = '+' ∨ c = '-' ∨ c = '.')) then
      schemeFrom? (Text.asciiLower c :: read) rest
    else none

def readTail (kind : Kind) (input : List Char) : Option (List Char) × Option (List Char) :=
  let set := if kind = .other then EncodeSet.query else EncodeSet.specialQuery
  match unfold input with
  | '?' :: rest =>
    let fragment :=
      match rest.dropWhile (· ≠ '#') with
      | _ :: fragment => some (percentEncode .fragment fragment)
      | [] => none
    (some (percentEncode set (rest.takeWhile (· ≠ '#'))), fragment)
  | '#' :: rest => (none, some (percentEncode .fragment rest))
  | _ => (none, none)

/-- The URI of its parts, with the query and the fragment that are left to read. -/
def withTail (scheme : List Char) (authority : Option Authority) (path rest : List Char) : Uri :=
  let (query, fragment) := readTail (kindOf scheme) rest
  ⟨scheme, authority, path, query, fragment⟩

def withFragment (base : Uri) (input : List Char) : Uri :=
  { base with fragment := (readTail base.kind input).2 }

/-! ## Authorities -/

/-- The user part of an authority: a name and a password behind a colon, each encoded, with the closing
sign. Without either there is none. -/
def userinfoText (text : List Char) : List Char :=
  match Text.splitOnce ':' text with
  | none => percentEncode .userinfo text ++ ['@']
  | some (user, password) =>
    let secret := if password.isEmpty then [] else ':' :: percentEncode .userinfo password
    if user.isEmpty && password.isEmpty then [] else percentEncode .userinfo user ++ secret ++ ['@']

/-- The host and what follows it, cut at the first colon outside brackets. -/
def splitHost (bracket : Bool) : List Char → List Char × List Char
  | [] => ([], [])
  | c :: rest =>
    if c = ':' ∧ !bracket then ([], c :: rest)
    else
      let (host, after) := splitHost (c == '[' || (bracket && c != ']')) rest
      (c :: host, after)

/-- Reads the digits of a port up to its end; a slash in either direction ends it. -/
def portFrom (read : Option Nat) : List Char → Except UriError (Option Nat × List Char)
  | [] => .ok (read, [])
  | c :: rest =>
    if '0' ≤ c ∧ c ≤ '9' then
      let port := read.getD 0 * 10 + (c.toNat - 48)
      if 65535 < port then .error .invalidPort else portFrom (some port) rest
    else if isAnySlash c then .ok (read, c :: rest)
    else .error .invalidPort

/-- Reads the host and the port of an authority. Gives also what is left of the text, which belongs to the
path. -/
def hostAndPort (scheme userinfo text : List Char) : Except UriError (Authority × List Char) := do
  let (hostText, after) := splitHost false text
  let special := kindOf scheme != .other
  if special && hostText.isEmpty then throw .emptyHost
  let host ← if special then specialHost hostText else opaqueHost hostText
  match after with
  | ':' :: digits =>
    if host.isEmpty then throw .emptyHost
    let (port, rest) ← portFrom none digits
    return (⟨userinfo, host, if port = usualPort? scheme then none else port⟩, rest)
  | _ => return (⟨userinfo, host, none⟩, after)

def endsAuthority (kind : Kind) (c : Char) : Bool :=
  isSlash kind c || endsPath c

/-- Reads an authority behind its slashes: the authority, and the text of the path and all that follows. -/
def readAuthority (scheme input : List Char) : Except UriError (Authority × List Char) := do
  let kind := kindOf scheme
  let text := unfold (input.takeWhile (!endsAuthority kind ·))
  let rest := input.dropWhile (!endsAuthority kind ·)
  let (userinfo, hosted) ←
    match Text.splitLast '@' text with
    | none => pure ([], text)
    | some ([], after) => if after.isEmpty && !rest.isEmpty then throw .emptyHost else pure ([], after)
    | some (user, after) => pure (userinfoText user, after)
  let (authority, left) ← hostAndPort scheme userinfo hosted
  if authority.host.isEmpty && !userinfo.isEmpty then throw .emptyHost
  return (authority, left ++ rest)

def builder (authority : Option Authority) (path : List Char) : PathBuilder :=
  { path := path, bare := authority == some ⟨[], [], none⟩
    hosted := (authority.map fun a => !a.host.isEmpty).getD false }

/-- Reads the path behind an authority. In special schemes there always is one. -/
def pathBehind (kind : Kind) (b : PathBuilder) (input : List Char) : PathBuilder × List Char :=
  let next := (first? input).map Prod.fst
  if kind = .other then
    if next = some '?' ∨ next = some '#' then (b, input)
    else if next.isSome ∧ next ≠ some '/' then walkPath kind { b with path := b.path ++ ['/'] } input
    else walkPath kind b input
  else if b.endsInSlash then walkPath kind b input
  else
    let slashed := { b with path := b.path ++ ['/'] }
    match first? input with
    | some (c, rest) => if isAnySlash c then walkPath kind slashed rest else walkPath kind slashed input
    | none => walkPath kind slashed input

def readHierarchy (scheme input : List Char) : Except UriError Uri := do
  let (authority, rest) ← readAuthority scheme input
  let (built, tail) := pathBehind (kindOf scheme) (builder (some authority) []) rest
  return withTail scheme (some authority) built.path tail

/-! ## Files -/

def fileScheme : List Char := "file".toList

def noHost : Authority := ⟨[], [], none⟩

def hostOnly (host : List Char) : Authority := ⟨[], host, none⟩

def fileOnPath (host path input : List Char) : Uri :=
  let (built, tail) := walkPath .file (builder (some (hostOnly host)) path) input
  withTail fileScheme (some (hostOnly host)) built.path tail

/-- Reads what follows two slashes in the URI of a file. A drive in the place of the host belongs to the
path, and the own computer has no name. -/
def fileHost (input : List Char) : Except UriError Uri := do
  let ends := fun c => isAnySlash c || endsPath c
  let text := unfold (input.takeWhile (!ends ·))
  if isDrive text then return fileOnPath [] ['/'] input
  let named ← if text.isEmpty then pure [] else specialHost text
  let host := if named = "localhost".toList then [] else named
  let (built, tail) := pathBehind .file (builder (some (hostOnly host)) []) (input.dropWhile (!ends ·))
  return withTail fileScheme (some (if built.hosted then hostOnly host else noHost)) built.path tail

def hostOf (base : Option Uri) : List Char :=
  ((base.bind Uri.authority).map Authority.host).getD []

def driveOf? (base : Option Uri) : Option (List Char) :=
  match base.bind segments? with
  | some (segment :: _) => if isPlainDrive segment then some segment else none
  | _ => none

/-- Reads what follows a single slash in the URI of a file. The drive or the host of the base stays unless
another drive follows. -/
def fileFromRoot (base : Option Uri) (input after : List Char) : Uri :=
  if startsWithDrive (unfold after) then fileOnPath [] [] input
  else
    match driveOf? base with
    | some drive => fileOnPath [] ('/' :: drive) input
    | none => fileOnPath (hostOf base) [] input

def readFile (base : Option Uri) (input : List Char) : Except UriError Uri :=
  match first? input with
  | some (c, after) =>
    if isAnySlash c then
      match first? after with
      | some (d, beyond) => if isAnySlash d then fileHost beyond else .ok (fileFromRoot base input after)
      | none => .ok (fileFromRoot base input after)
    else
      match base with
      | none => .ok (fileOnPath [] ['/'] input)
      | some base =>
        if c = '?' then .ok (withTail base.scheme base.authority base.path input)
        else if c = '#' then .ok (base.withFragment input)
        else if startsWithDrive (unfold input) then .ok (fileOnPath [] ['/'] input)
        else
          let (built, tail) := walkPath .file (builder base.authority (popSegment .file base.path)) input
          .ok (withTail base.scheme base.authority built.path tail)
  | none =>
    match base with
    | none => .ok (fileOnPath [] ['/'] input)
    | some base => .ok { base with fragment := none }

/-! ## All schemes -/

def readRelative (base : Uri) (input : List Char) : Except UriError Uri :=
  match first? input with
  | none => .ok { base with fragment := none }
  | some (c, after) =>
    if c = '?' then .ok (withTail base.scheme base.authority base.path input)
    else if c = '#' then .ok (base.withFragment input)
    else if isAnySlash c then
      let (count, rest) := leadingSlashes input
      if 2 ≤ count then readHierarchy base.scheme ((afterDoubleSlash? input).getD rest)
      else
        let (built, tail) := walkPath base.kind (builder base.authority ['/']) after
        .ok (withTail base.scheme base.authority built.path tail)
    else
      let popped := if base.path.isEmpty then [] else popSegment base.kind base.path
      let path := if popped.isEmpty then ['/'] else popped
      let (built, tail) := walkPath base.kind (builder base.authority path) input
      .ok (withTail base.scheme base.authority built.path tail)

def readOther (scheme input : List Char) : Except UriError Uri :=
  match afterDoubleSlash? input with
  | some rest => readHierarchy scheme rest
  | none =>
    match first? input with
    | some ('/', rest) =>
      let (built, tail) := walkPath .other (builder none ['/']) rest
      .ok (withTail scheme none built.path tail)
    | _ =>
      let path := percentEncode .controls (unfold (input.takeWhile (!endsPath ·)))
      .ok (withTail scheme none path (input.dropWhile (!endsPath ·)))

def readScheme (base : Option Uri) (scheme input : List Char) : Except UriError Uri :=
  match kindOf scheme with
  | .file => readFile (base.filter fun b => b.scheme == scheme) input
  | .other => readOther scheme input
  | .special =>
    let (count, rest) := leadingSlashes input
    match base with
    | some base => if count < 2 ∧ base.scheme = scheme then readRelative base input else readHierarchy scheme rest
    | none => readHierarchy scheme rest

def readReference (base : Option Uri) (input : List Char) : Except UriError Uri :=
  match base with
  | none => .error .relativeWithoutBase
  | some base =>
    if (first? input).map Prod.fst = some '#' then .ok (base.withFragment input)
    else if base.isOpaque then .error .relativeToOpaque
    else if base.kind = .file then readFile (some base) input
    else readRelative base input

/-- A control character or a space, which may stand around a URI. -/
def isPadding (c : Char) : Bool :=
  c.toNat ≤ 0x20

def read (base : Option Uri) (text : String) : Except UriError Uri :=
  let input := Text.dropEndWhile isPadding (text.toList.dropWhile isPadding)
  match schemeFrom? [] input with
  | some (scheme, rest) => readScheme base scheme rest
  | none => readReference base input

def parse (text : String) : Except UriError Uri :=
  read none text

def join (base : Uri) (reference : String) : Except UriError Uri :=
  read (some base) reference

end SpecServer.Uri
