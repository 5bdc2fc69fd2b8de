import SpecServer.Uri.Host
set_option autoImplicit false

/-!
URIs in their parts. Two URIs are the same when all their parts are, which is when their texts are.
-/

namespace SpecServer

/-- What stands between the two slashes and the path: the user with its `@`, the host, and a port that is
not the usual one of the scheme. -/
structure Authority where
  userinfo : List Char
  host : List Char
  port : Option Nat
deriving DecidableEq, Repr

/-- A URI. The path holds its slashes; without a leading slash it is opaque. Query and fragment come
without their marks. -/
structure Uri where
  scheme : List Char
  authority : Option Authority
  path : List Char
  query : Option (List Char)
  fragment : Option (List Char)
deriving DecidableEq, Repr

instance : Inhabited Uri := ⟨⟨[], none, [], none, none⟩⟩

def Authority.text (authority : Authority) : List Char :=
  '/' :: '/' :: authority.userinfo ++ authority.host ++
    match authority.port with
    | some port => ':' :: Nat.toDigits 10 port
    | none => []

namespace Uri

inductive Kind where
  | file
  | special
  | other
deriving DecidableEq, Repr

/-- The schemes besides `file` whose URIs always have a host, with their usual ports. -/
def specialPorts : List (List Char × Nat) :=
  [("http".toList, 80), ("https".toList, 443), ("ws".toList, 80), ("wss".toList, 443), ("ftp".toList, 21)]

def usualPort? (scheme : List Char) : Option Nat :=
  (specialPorts.find? fun entry => entry.1 == scheme).map Prod.snd

def kindOf (scheme : List Char) : Kind :=
  if scheme = "file".toList then .file else if (usualPort? scheme).isSome then .special else .other

def kind (uri : Uri) : Kind :=
  kindOf uri.scheme

/-- Whether the path has no segments, so that nothing can be relative to the URI. -/
def isOpaque (uri : Uri) : Bool :=
  uri.authority.isNone && uri.path.head? != some '/'

def marked (mark : Char) : Option (List Char) → List Char
  | some text => mark :: text
  | none => []

/-- The text before the query. Without an authority, a path that starts with two slashes gets a dot before
it, so that it is not taken for one. -/
def beforeQuery (uri : Uri) : List Char :=
  let lead :=
    match uri.authority with
    | some authority => authority.text
    | none => if Text.startsWith ['/', '/'] uri.path then ['/', '.'] else []
  uri.scheme ++ ':' :: lead ++ uri.path

def text (uri : Uri) : List Char :=
  uri.beforeQuery ++ marked '?' uri.query ++ marked '#' uri.fragment

def render (uri : Uri) : String :=
  String.ofList uri.text

/-- The segments of the path; an opaque path has none. -/
def segments? (uri : Uri) : Option (List (List Char)) :=
  match uri.path with
  | '/' :: rest => some (Text.splitAt '/' rest)
  | _ => none

end Uri

end SpecServer
