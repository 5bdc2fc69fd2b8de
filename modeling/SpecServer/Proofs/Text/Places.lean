import Mathlib.Data.List.Basic
import SpecServer.Proofs.Text.Cuts
import SpecServer.Text.Position
set_option autoImplicit false

/-!
Byte offsets and places. The place of an offset is counted over the text before it, and the way back cuts the text into
lines and counts within one of them. Places grow with the offsets, and an offset between two characters is found again,
unless its line ends before it: within a line end of two characters, or behind the line feed at the end of the text.
-/

namespace SpecServer.Text

variable {text front back piece : List Char}

/-! ## Lines -/

private theorem lines_newline (absent : '\n' ∉ piece) (rest : List Char) :
    lines (piece ++ '\n' :: rest) = stripReturn piece :: lines rest := by
  obtain ⟨next, more, cut⟩ := List.exists_cons_of_ne_nil (splitAt_ne_nil '\n' rest)
  simp only [lines, splitAt_append absent, cut, List.getLast?_cons_cons, List.dropLast_cons_cons, List.map_cons]
  split <;> rfl

private theorem lines_of_not_mem (absent : '\n' ∉ text) (nonempty : text ≠ []) : lines text = [text] := by
  obtain ⟨c, rest, rfl⟩ := List.exists_cons_of_ne_nil nonempty
  rw [lines, splitAt_of_not_mem absent]
  rfl

private theorem mem_stripReturn {line : List Char} {c : Char} (member : c ∈ stripReturn line) : c ∈ line := by
  rw [stripReturn] at member
  split at member
  · exact (List.dropLast_sublist line).subset member
  · exact member

theorem newline_not_mem_of_mem_lines {line : List Char} (member : line ∈ lines text) : '\n' ∉ line := by
  have whole : line ∈ (splitAt '\n' text).dropLast.map stripReturn ∨ (splitAt '\n' text).getLast? = some line := by
    rw [lines] at member
    split at member
    · exact .inl member
    next last =>
      rw [last]
      exact (List.mem_append.mp member).imp_right fun single => congrArg some (List.mem_singleton.mp single).symm
    · exact .inl member
  intro newline
  obtain ended | last := whole
  · obtain ⟨piece, among, rfl⟩ := List.mem_map.mp ended
    exact not_mem_of_mem_splitAt '\n' text piece ((List.dropLast_sublist _).subset among) (mem_stripReturn newline)
  · exact not_mem_of_mem_splitAt '\n' text line (List.mem_of_getLast? last) newline

private theorem oneLine_or_newline (text : List Char) :
    '\n' ∉ text ∨ ∃ piece rest, text = piece ++ '\n' :: rest ∧ '\n' ∉ piece := by
  by_cases member : '\n' ∈ text
  · exact .inr (List.eq_append_cons_of_mem member)
  · exact .inl member

/-! ## Places -/

/-- Whether a place comes before another: on an earlier line, or further left on the same one. -/
def Position.Before (left right : Position) : Prop :=
  left.line < right.line ∨ left.line = right.line ∧ left.character < right.character

private theorem Position.Before.trans {left middle right : Position} (first : left.Before middle)
    (second : middle.Before right) :
    left.Before right := by
  simp only [Before] at *
  omega

private theorem Position.before_advance (place : Position) (c : Char) : place.Before (place.advance c) := by
  rw [advance]
  split
  · exact .inl (Nat.lt_succ_self _)
  · exact .inr ⟨rfl, Nat.lt_succ_self _⟩

theorem Position.before_foldl (place : Position) (nonempty : text ≠ []) : place.Before (text.foldl advance place) := by
  induction text generalizing place with
  | nil => contradiction
  | cons c rest ih =>
    rw [List.foldl_cons]
    cases rest with
    | nil => exact before_advance place c
    | cons d rest => exact (before_advance place c).trans (ih (place.advance c) (List.cons_ne_nil _ _))

private theorem Position.foldl_down (place : Position) (text : List Char) (count : Nat) :
    text.foldl advance ⟨place.line + count, place.character⟩ =
      ⟨(text.foldl advance place).line + count, (text.foldl advance place).character⟩ := by
  induction text generalizing place with
  | nil => rfl
  | cons c rest ih =>
    have step : advance ⟨place.line + count, place.character⟩ c =
        ⟨(place.advance c).line + count, (place.advance c).character⟩ := by
      simp only [advance]
      split
      · rw [Nat.add_right_comm]
      · rfl
    rw [List.foldl_cons, List.foldl_cons, step, ih]

private theorem Position.after_of_not_mem (absent : '\n' ∉ text) : after text = ⟨0, text.length⟩ := by
  have run : ∀ column, text.foldl advance ⟨0, column⟩ = ⟨0, column + text.length⟩ := by
    induction text with
    | nil => exact fun _ => rfl
    | cons c rest ih =>
      intro column
      simp only [List.mem_cons, not_or] at absent
      rw [List.foldl_cons, advance, if_neg (Ne.symm absent.1), ih absent.2, List.length_cons, Nat.add_right_comm]
      rfl
  exact (run 0).trans (by rw [Nat.zero_add])

private theorem Position.after_newline (absent : '\n' ∉ piece) (rest : List Char) :
    after (piece ++ '\n' :: rest) = ⟨(after rest).line + 1, (after rest).character⟩ := by
  have first := after_of_not_mem absent
  rw [after] at first ⊢
  rw [List.foldl_append, first, List.foldl_cons]
  exact foldl_down start rest 1

/-! ## Offsets -/

/-- Whether an offset is between two characters of a text, or at its start or its end. -/
def IsBoundary (text : List Char) (offset : Nat) : Prop :=
  ∃ front back, text = front ++ back ∧ byteLength front = offset

/-- The offset at which a line starts. -/
def lineStart : Nat → List Char → Nat
  | 0, _ => 0
  | _ + 1, [] => 0
  | line + 1, c :: text => c.utf8Size + if c = '\n' then lineStart line text else lineStart (line + 1) text

/-- Whether an offset is behind the carriage return of a line end of two characters, before the line feed. -/
def InLineEnd (text : List Char) (offset : Nat) : Prop :=
  ∃ front back, text = front ++ ['\r'] ++ '\n' :: back ∧ byteLength (front ++ ['\r']) = offset

/-- Whether an offset is at the end of a text that has no line there, since it is empty or ends in a line feed. -/
def BehindLines (text : List Char) (offset : Nat) : Prop :=
  offset = byteLength text ∧ (text = [] ∨ text.getLast? = some '\n')

private theorem takeBytes_append (front back : List Char) : takeBytes (byteLength front) (front ++ back) = front := by
  induction front with
  | nil => rw [byteLength_nil, takeBytes]
  | cons c front ih =>
    obtain ⟨size, positive⟩ := Nat.exists_eq_succ_of_ne_zero (Nat.ne_of_gt c.utf8Size_pos)
    rw [byteLength_cons, positive, Nat.succ_add, Nat.succ_eq_add_one, List.cons_append, takeBytes, positive]
    rw [show size + byteLength front + 1 - size.succ = byteLength front by omega, ih]

theorem positionOf_append (front back : List Char) :
    positionOf (front ++ back) (byteLength front) = Position.after front := by
  rw [positionOf, takeBytes_append]

private theorem boundary_unique {front' back' : List Char} (same : front ++ back = front' ++ back')
    (offset : byteLength front = byteLength front') : front = front' ∧ back = back' := by
  have fronts : front = front' := by
    rw [← takeBytes_append front back, same, offset, takeBytes_append]
  subst fronts
  exact ⟨rfl, List.append_cancel_left same⟩

private theorem byteLength_pos (nonempty : text ≠ []) : 0 < byteLength text := by
  obtain ⟨c, rest, rfl⟩ := List.exists_cons_of_ne_nil nonempty
  rw [byteLength_cons]
  exact Nat.add_pos_left c.utf8Size_pos _

private theorem before_positionOf {left right : Nat} (first : IsBoundary text left) (second : IsBoundary text right)
    (less : left < right) : (positionOf text left).Before (positionOf text right) := by
  obtain ⟨front, back, rfl, rfl⟩ := first
  obtain ⟨front', back', same, rfl⟩ := second
  rw [positionOf_append, same, positionOf_append]
  obtain ⟨more, rfl, -⟩ | ⟨more, rfl, -⟩ := List.append_eq_append_iff.mp same
  · have nonempty : more ≠ [] := by
      rintro rfl
      rw [List.append_nil] at less
      exact Nat.lt_irrefl _ less
    rw [Position.after, Position.after, List.foldl_append]
    exact Position.before_foldl _ nonempty
  · rw [byteLength_append] at less
    omega

private theorem lineStart_newline (absent : '\n' ∉ piece) (line : Nat) (rest : List Char) :
    lineStart (line + 1) (piece ++ '\n' :: rest) = byteLength (piece ++ ['\n']) + lineStart line rest := by
  induction piece with
  | nil =>
    rw [List.nil_append, lineStart, if_pos rfl]
    rfl
  | cons c piece ih =>
    simp only [List.mem_cons, not_or] at absent
    rw [List.cons_append, lineStart, if_neg (Ne.symm absent.1), ih absent.2, List.cons_append, byteLength_cons,
      Nat.add_assoc]

/-! ## There and back -/

/-- Whether the line of what is between `front` and `back` ends before it. -/
def Beyond (front back : List Char) : Prop :=
  front.getLast? = some '\r' ∧ back.head? = some '\n' ∨ back = [] ∧ (front = [] ∨ front.getLast? = some '\n')

/-- Whether the place behind `front` leads back there. -/
def Restored (front back : List Char) : Prop :=
  ∃ line, lineAt? (front ++ back) (Position.after front).line = some line ∧
    byteLength front =
      lineStart (Position.after front).line (front ++ back) + charToByte line (Position.after front).character

private theorem stripReturn_append (nonempty : back ≠ []) (front : List Char) :
    stripReturn (front ++ back) = front ++ stripReturn back := by
  rw [stripReturn, stripReturn, List.getLast?_append_of_ne_nil front nonempty]
  split
  · exact List.dropLast_append_of_ne_nil nonempty
  · rfl

private theorem charToByte_append (front back : List Char) :
    charToByte (front ++ back) front.length = byteLength front := by
  rw [charToByte, List.take_left]

private theorem byteLength_eq_charToByte_iff :
    byteLength front = charToByte (stripReturn front) front.length ↔ front.getLast? ≠ some '\r' := by
  rw [stripReturn]
  split
  next ends =>
    obtain ⟨before, rfl⟩ := List.getLast?_eq_some_iff.mp ends
    apply iff_of_false
    · have short : before.take (before ++ ['\r']).length = before := List.take_of_length_le (by simp)
      have one : 0 < byteLength ['\r'] := byteLength_pos (List.cons_ne_nil _ _)
      rw [charToByte, List.dropLast_concat, short, byteLength_append]
      omega
    · exact fun other => other ends
  next other =>
    apply iff_of_true
    · rw [charToByte, List.take_length]
    · exact other

private theorem restored_first (absent : '\n' ∉ front) : Restored front back ↔ ¬Beyond front back := by
  rw [Restored, Position.after_of_not_mem absent]
  simp only [lineAt?, lineStart, Nat.zero_add]
  obtain single | ⟨more, rest, rfl, within⟩ := oneLine_or_newline back
  · have newline : '\n' ∉ front ++ back := by simp [absent, single]
    by_cases empty : front ++ back = []
    · obtain ⟨rfl, rfl⟩ := List.append_eq_nil_iff.mp empty
      apply iff_of_false
      · rintro ⟨line, found, -⟩
        cases found
      · exact fun inside => inside (.inr ⟨rfl, .inl rfl⟩)
    · -- the only line is the whole text, with a carriage return at its end if it has one
      rw [lines_of_not_mem newline empty]
      apply iff_of_true
      · exact ⟨front ++ back, rfl, (charToByte_append front back).symm⟩
      · rintro (⟨-, starts⟩ | ⟨rfl, rfl | ends⟩)
        · exact single (List.mem_of_mem_head? starts)
        · exact empty rfl
        · exact absent (List.mem_of_getLast? ends)
  · have newline : '\n' ∉ front ++ more := by simp [absent, within]
    rw [← List.append_assoc, lines_newline newline]
    simp only [List.getElem?_cons_zero, Option.some.injEq, exists_eq_left']
    -- a carriage return before the line feed is all that the line may lack
    cases more with
    | nil =>
      rw [List.append_nil, byteLength_eq_charToByte_iff]
      simp [Beyond]
    | cons c more =>
      apply iff_of_true
      · rw [stripReturn_append (List.cons_ne_nil _ _), charToByte_append]
      · rintro (⟨-, starts⟩ | ⟨ends, -⟩)
        · cases starts
          exact within List.mem_cons_self
        · cases ends

private theorem restored_newline (absent : '\n' ∉ piece) (front back : List Char) :
    Restored (piece ++ '\n' :: front) back ↔ Restored front back := by
  have cut : piece ++ '\n' :: front ++ back = piece ++ '\n' :: (front ++ back) := by simp
  simp only [Restored, Position.after_newline absent, cut, lineAt?, lines_newline absent, List.getElem?_cons_succ,
    lineStart_newline absent, byteLength_append, byteLength_cons, byteLength_nil]
  apply exists_congr
  intro line
  apply and_congr_right
  intro _
  omega

private theorem beyond_newline (piece front back : List Char) :
    Beyond (piece ++ '\n' :: front) back ↔ Beyond front back := by
  cases front with
  | nil => simp [Beyond]
  | cons c front => simp [Beyond, List.getLast?_cons_cons]

private theorem restored_iff (front back : List Char) : Restored front back ↔ ¬Beyond front back := by
  induction size : front.length using Nat.strongRecOn generalizing front with
  | ind size ih =>
    subst size
    obtain single | ⟨piece, rest, rfl, absent⟩ := oneLine_or_newline front
    · exact restored_first single
    · rw [restored_newline absent, beyond_newline]
      apply ih rest.length _ rest rfl
      rw [List.length_append, List.length_cons]
      omega

private theorem beyond_iff (front back : List Char) :
    Beyond front back ↔ InLineEnd (front ++ back) (byteLength front) ∨ BehindLines (front ++ back) (byteLength front) := by
  apply or_congr
  · constructor
    · rintro ⟨ends, starts⟩
      obtain ⟨before, rfl⟩ := List.getLast?_eq_some_iff.mp ends
      obtain ⟨after, rfl⟩ := List.head?_eq_some_iff.mp starts
      exact ⟨before, after, rfl, rfl⟩
    · rintro ⟨before, after, same, offset⟩
      obtain ⟨rfl, rfl⟩ := boundary_unique same offset.symm
      exact ⟨List.getLast?_concat, rfl⟩
  · constructor
    · rintro ⟨rfl, lineless⟩
      rw [List.append_nil]
      exact ⟨rfl, lineless⟩
    · rintro ⟨offset, lineless⟩
      have whole : front ++ back = front ++ back ++ [] := (List.append_nil _).symm
      obtain ⟨same, rfl⟩ := boundary_unique whole offset
      rw [← same] at lineless
      exact ⟨rfl, lineless⟩

/-- Places grow with the offsets between characters, and such an offset is found again from its place exactly if it is
neither within a line end nor behind all lines. -/
theorem offsets_restored (text : List Char) :
    (∀ left right, IsBoundary text left → IsBoundary text right → left < right →
        (positionOf text left).Before (positionOf text right)) ∧
      ∀ offset, IsBoundary text offset →
        ((∃ line, lineAt? text (positionOf text offset).line = some line ∧
            offset = lineStart (positionOf text offset).line text +
              charToByte line (positionOf text offset).character) ↔
          ¬InLineEnd text offset ∧ ¬BehindLines text offset) := by
  constructor
  · intro left right first second less
    exact before_positionOf first second less
  · rintro offset ⟨front, back, rfl, rfl⟩
    rw [positionOf_append, ← not_or, ← beyond_iff]
    exact restored_iff front back

end SpecServer.Text
