import SpecServer.Proofs.Uri.Walk
set_option autoImplicit false

/-!
Paths of files that are led by a drive. A drive with a slash behind it is not left again, neither by dots nor by what is
walked afterwards; and tabs or line ends behind a drive are the only thing that lets a segment hold a slash.
-/

namespace SpecServer.Uri

variable {kind : Kind} {c : Char}

/-- Whether a path starts with the drive of a letter and a slash behind it. -/
structure Led (c : Char) (path : List Char) : Prop where
  letter : isLetter c = true
  start : ∃ rest, path = '/' :: c :: ':' :: '/' :: rest

theorem colon_not_mem_of_dots {segment : List Char} (dots : isSingleDot segment = true ∨ isDoubleDot segment = true) :
    ':' ∉ segment := by
  have single : ∀ text ∈ [".", "%2e", "%2E"], ':' ∉ text.toList := by decide
  have double : ∀ text ∈ ["..", "%2e%2e", "%2e%2E", "%2E%2e", "%2E%2E", "%2e.", "%2E.", ".%2e", ".%2E"],
      ':' ∉ text.toList := by decide
  have same : (String.ofList segment).toList = segment := String.toList_ofList
  rcases dots with one | two
  · exact same ▸ single _ (List.contains_iff_mem.mp one)
  · exact same ▸ double _ (List.contains_iff_mem.mp two)

private theorem Led.append {path : List Char} (led : Led c path) (more : List Char) : Led c (path ++ more) := by
  obtain ⟨letter, rest, rfl⟩ := led
  exact ⟨letter, rest ++ more, rfl⟩

private theorem Led.length {path : List Char} (led : Led c path) : 4 ≤ path.length := by
  obtain ⟨-, rest, rfl⟩ := led
  simp

/-! ## One segment up -/

/-- The last slash of such a path is the one behind the drive, or a later one. -/
theorem Led.splitName {path : List Char} (led : Led c path) : Led c (Uri.splitName path).1 := by
  obtain ⟨letter, rest, rfl⟩ := led
  have short : (('/' :: c :: ':' :: '/' :: rest).reverse.takeWhile (· ≠ '/')).length ≤ rest.length := by
    have stop : (rest.reverse ++ ['/', ':', c, '/']).takeWhile (· ≠ '/') = rest.reverse.takeWhile (· ≠ '/') := by
      rw [List.takeWhile_append]
      split
      next whole => rw [List.IsPrefix.eq_of_length (List.takeWhile_prefix _) whole]; simp
      · rfl
    have turned : ('/' :: c :: ':' :: '/' :: rest).reverse = rest.reverse ++ ['/', ':', c, '/'] := by simp
    rw [turned, stop]
    exact Nat.le_trans (List.takeWhile_prefix _).length_le (Nat.le_of_eq List.length_reverse)
  have long : ∃ more, ('/' :: c :: ':' :: '/' :: rest).length -
      (('/' :: c :: ':' :: '/' :: rest).reverse.takeWhile (· ≠ '/')).length = more + 4 := by
    refine ⟨rest.length - (('/' :: c :: ':' :: '/' :: rest).reverse.takeWhile (· ≠ '/')).length, ?_⟩
    simp only [List.length_cons] at short ⊢
    omega
  obtain ⟨more, long⟩ := long
  refine ⟨letter, rest.take more, ?_⟩
  simp only [Uri.splitName, List.length_reverse, long, List.take_succ_cons]

private theorem Led.popSegment {path : List Char} (led : Led c path) : Led c (Uri.popSegment kind path) := by
  simp only [Uri.popSegment]
  split
  · exact led
  · exact led.splitName

private theorem Led.withSlash {b : PathBuilder} (led : Led c b.path) : Led c b.withSlash.path := by
  simp only [PathBuilder.withSlash]
  split
  · exact led
  · exact led.append ['/']

private theorem Led.up {b : PathBuilder} (led : Led c b.path) (slash : Bool) : Led c (b.up kind slash).path := by
  have dropped : canDropSlash b.path = true → Led c b.path.dropLast := by
    intro drops
    obtain ⟨letter, rest, path⟩ := led
    rw [path] at drops ⊢
    cases rest with
    | nil =>
      have cut : Uri.splitName ['/', c, ':'] = (['/'], [c, ':']) := by
        have apart : c ≠ '/' := by
          rintro rfl
          exact absurd letter (by decide)
        simp [Uri.splitName, apart]
      have drive : startsWithDrive [c, ':', '/'] = isLetter c := by simp [startsWithDrive, isDrive]
      simp [canDropSlash, cut, drive, letter] at drops
    | cons d rest => exact ⟨letter, (d :: rest).dropLast, rfl⟩
  have shorter : Led c (if b.endsInSlash && canDropSlash b.path then b.path.dropLast else b.path) := by
    split
    next drops => exact dropped (Bool.and_eq_true_iff.mp drops).2
    · exact led
  generalize here : (if b.endsInSlash && canDropSlash b.path then b.path.dropLast else b.path) = path at shorter
  have some : path.isEmpty = false := by
    obtain ⟨-, rest, rfl⟩ := shorter
    rfl
  simp only [PathBuilder.up, here, some, Bool.false_eq_true, ↓reduceIte]
  split
  · exact Led.withSlash shorter.popSegment
  · exact shorter.popSegment

/-! ## On along a path -/

private theorem Led.add {b : PathBuilder} (led : Led c b.path) (text : List Char) (slash : Bool) :
    Led c (b.add kind text slash).path := by
  have long : (b.path.length == 1) = false := by
    rw [beq_eq_false_iff_ne]
    have := led.length
    omega
  simp only [PathBuilder.add]
  split
  · exact led.up slash
  · split
    · exact led.withSlash
    · simp only [long, Bool.and_false, Bool.false_and, Bool.false_eq_true, ↓reduceIte]
      exact (led.append text).append _

/-- A segment that holds a slash behind a drive leads a path from its start. -/
theorem led_add {b : PathBuilder} (root : b.path = ['/']) (letter : isLetter c = true) (more : List Char) (slash : Bool) :
    Led c (b.add kind (c :: ':' :: '/' :: more) slash).path := by
  have single : isSingleDot (c :: ':' :: '/' :: more) = false :=
    Bool.eq_false_iff.mpr fun dots => colon_not_mem_of_dots (.inl dots) (by simp)
  have double : isDoubleDot (c :: ':' :: '/' :: more) = false :=
    Bool.eq_false_iff.mpr fun dots => colon_not_mem_of_dots (.inr dots) (by simp)
  have long : isDrive (c :: ':' :: '/' :: more) = false := rfl
  simp only [PathBuilder.add, double, single, long, root, Bool.and_false, Bool.false_eq_true, ↓reduceIte]
  exact ⟨letter, _, rfl⟩

theorem Led.readPath (fuel : Nat) {b : PathBuilder} (led : Led c b.path) (input : List Char) :
    Led c (Uri.readPath kind fuel b input).1.path := by
  induction fuel generalizing b input with
  | zero => exact led
  | succ fuel ih =>
    have start : ∀ slashed : Bool, Led c (if slashed then { b with path := b.path ++ ['/'] } else b).path := by
      intro slashed
      cases slashed with
      | true => exact led.append ['/']
      | false => exact led
    simp only [Uri.readPath]
    split
    · split
      · exact ih ((start _).add _ _) _
      · exact (start _).add _ _
    · exact (start _).add _ _

theorem hosted_readPath (fuel : Nat) {b : PathBuilder} (gone : b.hosted = false) (input : List Char) :
    (readPath kind fuel b input).1.hosted = false := by
  have withSlash : ∀ {b : PathBuilder}, b.hosted = false → b.withSlash.hosted = false := by
    intro b gone
    simp only [PathBuilder.withSlash]
    split
    · exact gone
    · exact gone
  have add : ∀ {b : PathBuilder}, b.hosted = false → ∀ text slash, (b.add kind text slash).hosted = false := by
    intro b gone text slash
    simp only [PathBuilder.add]
    split
    · simp only [PathBuilder.up]
      split
      · exact withSlash gone
      · exact gone
    · split
      · exact withSlash gone
      · split
        · rfl
        · exact gone
  induction fuel generalizing b input with
  | zero => exact gone
  | succ fuel ih =>
    have start : ∀ slashed : Bool, (if slashed then { b with path := b.path ++ ['/'] } else b).hosted = false := by
      intro slashed
      cases slashed with
      | true => exact gone
      | false => exact gone
    simp only [readPath]
    split
    · split
      · exact ih (add (start _) _ _) _
      · exact add (start _) _ _
    · exact add (start _) _ _

/-! ## Pieces of segments -/

theorem isPlainDrive_cases {segment : List Char} (plain : isPlainDrive segment = true) :
    ∃ c, segment = [c, ':'] ∧ isLetter c = true := by
  simp only [isPlainDrive] at plain
  split at plain
  next c => exact ⟨c, rfl, plain⟩
  next => cases plain

private theorem isPlainDrive_of_length {text : List Char} (long : 3 ≤ text.length) : isPlainDrive text = false := by
  refine Bool.eq_false_iff.mpr fun plain => ?_
  obtain ⟨c, rfl, -⟩ := isPlainDrive_cases plain
  simp only [List.length_cons, List.length_nil] at long
  omega

private theorem segmentPieces_of_drive (kind : Kind) (c : Char) {path : List Char} (some : path ≠ []) (more : List Char)
    (parts : List (List Char)) :
    ∃ longer, segmentPieces kind path ⟨c :: ':' :: '/' :: more, false⟩ parts = ⟨c :: ':' :: '/' :: longer, false⟩ := by
  induction parts generalizing more with
  | nil => exact ⟨more, rfl⟩
  | cons part rest ih =>
    have long : isPlainDrive ((path ++ [] ++ c :: ':' :: '/' :: more).drop 1) = false := by
      refine isPlainDrive_of_length ?_
      have := List.length_pos_iff.mpr some
      simp only [List.length_drop, List.length_append, List.length_cons]
      omega
    simp only [segmentPieces, Bool.false_eq_true, ↓reduceIte, long, Bool.and_false]
    exact ih _

/-- What follows a slash is a drive only if it is all that stands behind the first one. -/
theorem drive_of_slash {path front : List Char} (slash : path.getLast? = some '/')
    (plain : isPlainDrive ((path ++ front).drop 1) = true) :
    ∃ c, path = ['/'] ∧ front = [c, ':'] ∧ isLetter c = true := by
  cases path with
  | nil => cases slash
  | cons first others =>
    cases others with
    | nil =>
      obtain rfl := Option.some.inj slash
      obtain ⟨c, rfl, letter⟩ := isPlainDrive_cases plain
      exact ⟨c, rfl, rfl, letter⟩
    | cons second others =>
      -- a slash that is not the first character would be part of the drive
      obtain ⟨c, drive, letter⟩ := isPlainDrive_cases plain
      have member : '/' ∈ second :: others := List.mem_of_getLast? (by rwa [List.getLast?_cons_cons] at slash)
      have inside : '/' ∈ [c, ':'] := drive ▸ List.mem_append_left front member
      rcases List.mem_cons.mp inside with rfl | colon
      · exact absurd letter (by decide)
      · exact absurd (List.mem_singleton.mp colon) (by decide)

/-- The pieces of a segment are encoded one after another, unless a drive at the start of a file's path stands before
one of them. -/
theorem segmentPieces_cases {path : List Char} (slash : path.getLast? = some '/') (front : List Char)
    (parts : List (List Char)) :
    segmentPieces kind path ⟨front, false⟩ parts = ⟨front ++ percentEncode .path parts.flatten, false⟩ ∨
      (kind = .file ∧ path = ['/'] ∧ (front = [] → 2 ≤ parts.length)) ∧ ∃ c more, isLetter c = true ∧
        segmentPieces kind path ⟨front, false⟩ parts = ⟨c :: ':' :: '/' :: more, false⟩ := by
  induction parts generalizing front with
  | nil => exact .inl (by simp [segmentPieces, percentEncode])
  | cons part rest ih =>
    by_cases drive : (decide (kind = .file) && !part.isEmpty && isPlainDrive ((path ++ front).drop 1)) = true
    · simp only [Bool.and_eq_true, decide_eq_true_eq] at drive
      obtain ⟨c, rfl, rfl, letter⟩ := drive_of_slash slash drive.2
      have plain : isPlainDrive [c, ':'] = true := letter
      obtain ⟨longer, found⟩ := segmentPieces_of_drive kind c (List.cons_ne_nil '/' [])
        (percentEncode .path part) rest
      refine .inr ⟨⟨drive.1.1, rfl, fun empty => absurd empty (List.cons_ne_nil _ _)⟩, c, longer, letter, ?_⟩
      rw [← found]
      simp [segmentPieces, drive.1.1, drive.1.2, plain]
    · have along : segmentPieces kind path ⟨front, false⟩ (part :: rest) =
          segmentPieces kind path ⟨front ++ percentEncode .path part, false⟩ rest := by
        simp only [segmentPieces, Bool.false_eq_true, ↓reduceIte, List.append_nil, drive]
      rw [along, List.flatten_cons, percentEncode_append, ← List.append_assoc]
      cases rest with
      | nil => exact .inl (by simp [segmentPieces, percentEncode])
      | cons next more =>
        rcases ih (front ++ percentEncode .path part) with whole | ⟨⟨file, root, -⟩, found⟩
        · exact .inl whole
        · exact .inr ⟨⟨file, root, fun _ => by simp⟩, found⟩

end SpecServer.Uri
