set_option autoImplicit false

/-!
The styles that scalars are written in.
-/

namespace SpecServer.Yaml

/-- How a scalar is written: as it is, in quotes, or on lines of its own, which may be folded. -/
inductive Style where
  | plain
  | singleQuoted
  | doubleQuoted
  | literal
  | folded
deriving DecidableEq, Repr, Inhabited

end SpecServer.Yaml
