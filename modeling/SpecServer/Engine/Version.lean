import SpecServer.Decimal.Natural
import SpecServer.Settings
import SpecServer.Text.Blank
import SpecServer.Text.Split
set_option autoImplicit false

/-!
Versions of the engine: which requests the built-in one meets.
-/

namespace SpecServer

structure Version where
  major : Nat
  minor : Nat
  patch : Nat
deriving DecidableEq, Repr

namespace Version

def builtin : Version := ⟨3, 0, 0⟩

def text (version : Version) : String :=
  toString version.major ++ "." ++ toString version.minor ++ "." ++ toString version.patch

def isRangeMark (c : Char) : Bool :=
  ['^', '~', '>', '=', 'v'].contains c

/-- Reads a version of one to three numbers; those left out are zero. -/
def parse? (text : String) : Option Version :=
  match (Text.splitAt '.' ((Text.trim text.toList).dropWhile isRangeMark)).map Decimal.index? with
  | [some major] => some ⟨major, 0, 0⟩
  | [some major, some minor] => some ⟨major, minor, 0⟩
  | [some major, some minor, some patch] => some ⟨major, minor, patch⟩
  | _ => none

def atMost (left right : Version) : Bool :=
  left.major < right.major ||
    (left.major == right.major &&
      (left.minor < right.minor || (left.minor == right.minor && left.patch ≤ right.patch)))

def meets (requested : String) : Bool :=
  requested == Settings.anyVersion || (parse? requested).any fun version => version.atMost builtin

end Version

end SpecServer
