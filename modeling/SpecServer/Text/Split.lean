set_option autoImplicit false

/-!
Cutting texts at separators, taking known beginnings and endings off, and replacing parts. Main statements:
joining the pieces of a cut gives the text back, and no piece holds the separator.
-/

namespace SpecServer.Text

/-- What follows `start` in `text`, if the text begins with it. -/
def after? (start text : List Char) : Option (List Char) :=
  match start, text with
  | [], rest => some rest
  | _ :: _, [] => none
  | s :: start, c :: text => if s = c then after? start text else none

theorem after?_eq_some_iff (start text rest : List Char) :
    after? start text = some rest ↔ text = start ++ rest := by
  induction start generalizing text with
  | nil => simp [after?, eq_comm]
  | cons s start ih =>
    cases text with
    | nil => simp [after?]
    | cons c text =>
      by_cases same : s = c
      · subst same
        simp [after?, ih]
      · simp [after?, same, Ne.symm same]

def startsWith (start text : List Char) : Bool :=
  (after? start text).isSome

/-- What precedes `stop` in `text`, if the text ends with it. -/
def before? (stop text : List Char) : Option (List Char) :=
  (after? stop.reverse text.reverse).map List.reverse

theorem before?_eq_some_iff (stop text rest : List Char) :
    before? stop text = some rest ↔ text = rest ++ stop := by
  simp only [before?, Option.map_eq_some_iff, after?_eq_some_iff]
  constructor
  · rintro ⟨front, reversed, rfl⟩
    have unreversed := congrArg List.reverse reversed
    simpa using unreversed
  · rintro rfl
    exact ⟨rest.reverse, by simp, by simp⟩

/-- The pieces of `text` between the separators; one piece more than there are separators. -/
def splitAt {α : Type} [DecidableEq α] (separator : α) : List α → List (List α)
  | [] => [[]]
  | c :: text =>
    if c = separator then [] :: splitAt separator text
    else
      match splitAt separator text with
      | [] => [[c]]
      | piece :: pieces => (c :: piece) :: pieces

theorem splitAt_ne_nil (separator : Char) (text : List Char) : splitAt separator text ≠ [] := by
  induction text with
  | nil => simp [splitAt]
  | cons c text ih =>
    simp only [splitAt]
    split
    · simp
    · split <;> simp

def joinWith (separator : List Char) : List (List Char) → List Char
  | [] => []
  | [piece] => piece
  | piece :: next :: pieces => piece ++ separator ++ joinWith separator (next :: pieces)

theorem joinWith_splitAt (separator : Char) (text : List Char) :
    joinWith [separator] (splitAt separator text) = text := by
  induction text with
  | nil => rfl
  | cons c text ih =>
    have nonempty := splitAt_ne_nil separator text
    simp only [splitAt]
    split
    next same =>
      subst same
      cases pieces : splitAt c text with
      | nil => exact absurd pieces nonempty
      | cons piece rest => simp [joinWith, ← pieces, ih]
    next =>
      cases pieces : splitAt separator text with
      | nil => exact absurd pieces nonempty
      | cons piece rest =>
        rw [pieces] at ih
        cases rest with
        | nil => simpa [joinWith] using ih
        | cons next more => simpa [joinWith] using ih

theorem not_mem_of_mem_splitAt (separator : Char) (text piece : List Char)
    (member : piece ∈ splitAt separator text) : separator ∉ piece := by
  induction text generalizing piece with
  | nil => simp_all [splitAt]
  | cons c text ih =>
    simp only [splitAt] at member
    split at member
    · rcases List.mem_cons.mp member with rfl | member
      · simp
      · exact ih piece member
    next differs =>
      cases pieces : splitAt separator text with
      | nil => exact absurd pieces (splitAt_ne_nil separator text)
      | cons first rest =>
        rw [pieces] at member ih
        rcases List.mem_cons.mp member with rfl | member
        · have := ih first List.mem_cons_self
          simp [this, Ne.symm differs]
        · exact ih piece (List.mem_cons_of_mem _ member)

/-- The text before the first separator and the text after it, or nothing without a separator. -/
def splitOnce (separator : Char) : List Char → Option (List Char × List Char)
  | [] => none
  | c :: text =>
    if c = separator then some ([], text)
    else (splitOnce separator text).map fun (front, back) => (c :: front, back)

/-- The text before the last separator and the text after it, or nothing without a separator. -/
def splitLast (separator : Char) (text : List Char) : Option (List Char × List Char) :=
  (splitOnce separator text.reverse).map fun (back, front) => (front.reverse, back.reverse)

def replaceChar (old : Char) (new : List Char) (text : List Char) : List Char :=
  text.flatMap fun c => if c = old then new else [c]

/-- Every occurrence of the two characters in a row, from left to right and without overlap, replaced
by one character. -/
def replacePair (first second new : Char) : List Char → List Char
  | [] => []
  | [c] => [c]
  | c :: d :: text =>
    if c = first ∧ d = second then new :: replacePair first second new text
    else c :: replacePair first second new (d :: text)

def replaceFirst (old new : List Char) : List Char → List Char
  | [] => []
  | c :: text =>
    match after? old (c :: text) with
    | some rest => new ++ rest
    | none => c :: replaceFirst old new text

def occurs (pattern : List Char) : List Char → Bool
  | [] => pattern.isEmpty
  | c :: text => startsWith pattern (c :: text) || occurs pattern text

end SpecServer.Text
