import SpecServer.Proofs.Text.Cuts
import SpecServer.Proofs.Uri.Encoding
set_option autoImplicit false

/-!
Walking along a path that was walked before. A path is its segments with a slash before each; a segment that
was walked holds no slash, nothing to encode, and is no dots. Walking along such segments gives them back, except
that the drive at the start of a file's path gets its colon.
-/

namespace SpecServer.Uri

/-- A segment as it stands in a path that was walked. -/
structure Segment (kind : Kind) (segment : List Char) : Prop where
  kept : ∀ c ∈ segment, EncodeSet.path.Keeps c
  inner : ∀ c ∈ segment, isSlash kind c = false
  single : isSingleDot segment = false
  double : isDoubleDot segment = false

def slashed (segments : List (List Char)) : List Char :=
  segments.flatMap fun segment => '/' :: segment

@[simp] theorem slashed_nil : slashed [] = [] := rfl

@[simp] theorem slashed_cons (segment : List Char) (rest : List (List Char)) :
    slashed (segment :: rest) = '/' :: segment ++ slashed rest := rfl

theorem slashed_append (front back : List (List Char)) : slashed (front ++ back) = slashed front ++ slashed back :=
  List.flatMap_append

theorem length_le_length_slashed (segments : List (List Char)) : segments.length ≤ (slashed segments).length := by
  induction segments with
  | nil => exact Nat.le_refl _
  | cons segment rest ih =>
    simp only [slashed_cons, List.length_cons, List.cons_append, List.length_append]
    omega

def IsTail (rest : List Char) : Prop :=
  rest = [] ∨ ∃ c more, rest = c :: more ∧ endsPath c = true

def fixDrive (kind : Kind) (segment : List Char) : List Char :=
  if kind = .file ∧ isDrive segment = true then segment.take 1 ++ [':'] else segment

variable {kind : Kind} {segment : List Char}

private theorem Segment.not_endsPath (good : Segment kind segment) {c : Char} (member : c ∈ segment) :
    endsPath c = false := by
  have keeps := (good.kept c member).1
  cases ends : endsPath c with
  | false => rfl
  | true =>
    simp only [endsPath, Bool.or_eq_true, beq_iff_eq] at ends
    rcases ends with rfl | rfl <;> exact absurd keeps (by decide)

theorem Segment.not_fold (good : Segment kind segment) {c : Char} (member : c ∈ segment) : isFold c = false :=
  (good.kept c member).not_fold stable_path

private theorem Segment.unended (good : Segment kind segment) :
    ∀ c ∈ segment, (!(isSlash kind c || endsPath c)) = true := by
  intro c member
  rw [good.inner c member, good.not_endsPath member]
  rfl

theorem pieces_of_not_fold {text : List Char} (plain : ∀ c ∈ text, isFold c = false) : pieces text = [text] := by
  have same : text.map (fun c => if isFold c then '\t' else c) = text := by
    refine (List.map_congr_left fun c member => ?_).trans (List.map_id _)
    simp only [plain c member, Bool.false_eq_true, ↓reduceIte, id]
  rw [pieces, same]
  refine Text.splitAt_of_not_mem fun member => ?_
  exact absurd (plain _ member) (by decide)

theorem not_isPlainDrive_of_slash {path : List Char} (slash : path.getLast? = some '/') :
    isPlainDrive (path.drop 1) = false := by
  match path, slash with
  | [_], _ => rfl
  | [_, _], _ => rfl
  | [_, c, d], slash =>
    simp only [List.getLast?_cons_cons, List.getLast?_singleton, Option.some.injEq] at slash
    subst slash
    rfl
  | _ :: _ :: _ :: _ :: _, _ => simp [isPlainDrive]

private theorem segmentPieces_of_segment (good : Segment kind segment) {path : List Char}
    (slash : path.getLast? = some '/') :
    segmentPieces kind path ⟨[], false⟩ (pieces segment) = ⟨segment, false⟩ := by
  rw [pieces_of_not_fold fun c => good.not_fold]
  simp only [segmentPieces, Bool.false_eq_true, ↓reduceIte, List.append_nil, not_isPlainDrive_of_slash slash,
    Bool.and_false, percentEncode_of_keeps good.kept, List.nil_append]

/-! ## Along segments -/

/-- Whether a segment is the drive of a file's path at its start. -/
def drives (kind : Kind) (b : PathBuilder) (segment : List Char) : Bool :=
  kind == .file && b.path.length == 1 && isDrive segment

theorem add_segment (good : Segment kind segment) (b : PathBuilder) (slash : Bool) :
    b.add kind segment slash =
      { b with
        path := b.path ++ (if drives kind b segment then segment.take 1 ++ [':'] else segment) ++
          (if slash then ['/'] else [])
        hosted := b.hosted && !drives kind b segment } := by
  simp only [PathBuilder.add, good.double, good.single, Bool.false_eq_true, ↓reduceIte]
  have same : (decide (kind = .file) && b.path.length == 1 && isDrive segment) = drives kind b segment := by
    simp only [drives]
    cases kind <;> rfl
  rw [same]
  cases drives kind b segment with
  | true => simp
  | false => simp

private theorem takeWhile_stop {test : Char → Bool} {front rest : List Char} (all : ∀ c ∈ front, test c = true)
    (stop : ∀ c more, rest = c :: more → test c = false) : (front ++ rest).takeWhile test = front := by
  rw [List.takeWhile_append_of_pos all]
  cases rest with
  | nil => simp
  | cons c more => simp [stop c more rfl]

private theorem dropWhile_stop {test : Char → Bool} {front rest : List Char} (all : ∀ c ∈ front, test c = true)
    (stop : ∀ c more, rest = c :: more → test c = false) : (front ++ rest).dropWhile test = rest := by
  rw [List.dropWhile_append_of_pos all]
  cases rest with
  | nil => simp
  | cons c more => simp [stop c more rfl]

theorem readPath_segment (good : Segment kind segment) (fuel : Nat) {b : PathBuilder}
    (slash : b.path.getLast? = some '/') (rest : List Char) :
    readPath kind (fuel + 1) b (segment ++ '/' :: rest) = readPath kind fuel (b.add kind segment true) rest := by
  have stop : ∀ c more, '/' :: rest = c :: more → (!(isSlash kind c || endsPath c)) = false := by
    rintro c more same
    obtain ⟨rfl, -⟩ := List.cons.inj same
    rfl
  simp only [readPath, takeWhile_stop good.unended stop, dropWhile_stop good.unended stop,
    segmentPieces_of_segment good slash, Bool.false_eq_true, ↓reduceIte, List.drop_one, List.tail_cons]
  have lead : isSlash kind '/' = true := rfl
  simp only [lead, ↓reduceIte]

private theorem readPath_last (good : Segment kind segment) (fuel : Nat) {b : PathBuilder}
    (slash : b.path.getLast? = some '/') {rest : List Char} (tail : IsTail rest) :
    readPath kind (fuel + 1) b (segment ++ rest) = (b.add kind segment false, rest) := by
  have stop : ∀ c more, rest = c :: more → isSlash kind c = false ∧ (!(isSlash kind c || endsPath c)) = false := by
    rintro c more rfl
    rcases tail with empty | ⟨d, others, same, ends⟩
    · cases empty
    · obtain ⟨rfl, -⟩ := List.cons.inj same
      simp only [endsPath, Bool.or_eq_true, beq_iff_eq] at ends
      rcases ends with rfl | rfl
      · exact ⟨by cases kind <;> rfl, by cases kind <;> rfl⟩
      · exact ⟨by cases kind <;> rfl, by cases kind <;> rfl⟩
  have calm : (match rest with | c :: _ => isSlash kind c | [] => false) = false := by
    cases rest with
    | nil => rfl
    | cons c more => exact (stop c more rfl).1
  simp only [readPath, takeWhile_stop good.unended fun c more same => (stop c more same).2,
    dropWhile_stop good.unended fun c more same => (stop c more same).2, segmentPieces_of_segment good slash,
    Bool.false_eq_true, ↓reduceIte]
  cases rest with
  | nil => rfl
  | cons c more =>
    simp only [(stop c more rfl).1, Bool.false_eq_true, ↓reduceIte]

theorem readPath_segments (segment : List Char) (more : List (List Char))
    (good : ∀ other ∈ segment :: more, Segment kind other) {fuel : Nat} (fueled : more.length < fuel) {b : PathBuilder}
    (slash : b.path.getLast? = some '/') {rest : List Char} (tail : IsTail rest) :
    readPath kind fuel b (segment ++ slashed more ++ rest) =
      ({ b with
          path := b.path ++ (if drives kind b segment then segment.take 1 ++ [':'] else segment) ++ slashed more
          hosted := b.hosted && !drives kind b segment }, rest) := by
  induction more generalizing segment fuel b with
  | nil =>
    obtain ⟨fuel, rfl⟩ : ∃ less, fuel = less + 1 := ⟨fuel - 1, by omega⟩
    have first := good segment List.mem_cons_self
    simp only [slashed_nil, List.append_nil]
    rw [readPath_last first fuel slash tail, add_segment first]
    simp
  | cons next more ih =>
    obtain ⟨fuel, rfl⟩ : ∃ less, fuel = less + 1 := ⟨fuel - 1, by omega⟩
    have first := good segment List.mem_cons_self
    have later := fun other member => good other (List.mem_cons_of_mem _ member)
    simp only [slashed_cons, List.cons_append, List.append_assoc]
    rw [readPath_segment first fuel slash, ← List.append_assoc]
    have ended : (b.add kind segment true).path.getLast? = some '/' := by
      rw [add_segment first]
      simp
    rw [ih next later (by simp only [List.length_cons] at fueled; omega) ended, add_segment first]
    have far : drives kind
        { b with
          path := b.path ++ (if drives kind b segment then segment.take 1 ++ [':'] else segment) ++
            (if true then ['/'] else [])
          hosted := b.hosted && !drives kind b segment } next = false := by
      have held : b.path.length ≠ 0 := by
        intro empty
        rw [List.length_eq_zero_iff.mp empty] at slash
        cases slash
      have long : ∀ middle : List Char, ((b.path ++ middle ++ ['/']).length == 1) = false := by
        intro middle
        simp only [List.length_append, List.length_singleton, beq_eq_false_iff_ne]
        omega
      simp only [drives, ↓reduceIte, long, Bool.and_false, Bool.false_and]
    rw [far]
    simp

/-! ## From the start of a path -/

private theorem readPath_root (kind : Kind) (fuel : Nat) {b : PathBuilder} (empty : b.path = []) (rest : List Char) :
    readPath kind (fuel + 1) b ('/' :: rest) = readPath kind fuel { b with path := ['/'] } rest := by
  have lead : isSlash kind '/' = true := rfl
  have added : b.add kind [] true = { b with path := ['/'] } := by
    have single : isSingleDot [] = false := by decide
    have double : isDoubleDot [] = false := by decide
    simp [PathBuilder.add, single, double, empty]
  have found : segmentPieces kind b.path ⟨[], false⟩ (pieces []) = ⟨[], false⟩ := by
    simp [pieces, Text.splitAt, segmentPieces, percentEncode]
  simp only [readPath, List.takeWhile_cons, List.dropWhile_cons, lead, Bool.true_or, Bool.not_true, Bool.false_eq_true,
    ↓reduceIte, found, added, List.drop_one, List.tail_cons]

/-- What a builder holds once segments were walked from the first slash. -/
def PathBuilder.walked (b : PathBuilder) (kind : Kind) (segment : List Char) (more : List (List Char)) : PathBuilder :=
  { b with
    path := slashed (fixDrive kind segment :: more)
    hosted := b.hosted && !(kind == .file && isDrive segment) }

def SingleSlash (kind : Kind) (segment : List Char) (more : List (List Char)) : Prop :=
  kind = .file → segment = [] → more = []

private theorem collapse_fixed (good : Segment kind segment) {more : List (List Char)}
    (single : SingleSlash kind segment more) (file : kind = .file) :
    '/' :: (slashed (fixDrive kind segment :: more)).dropWhile (· == '/') = slashed (fixDrive kind segment :: more) := by
  cases segment with
  | nil =>
    obtain rfl := single file rfl
    subst file
    rfl
  | cons c rest =>
    have plain : (c == '/') = false := by
      have inner := good.inner c List.mem_cons_self
      simp only [isSlash, Bool.or_eq_false_iff] at inner
      exact inner.1
    have fixed : ∃ others, fixDrive kind (c :: rest) = c :: others := by
      simp only [fixDrive]
      split
      · exact ⟨_, rfl⟩
      · exact ⟨_, rfl⟩
    obtain ⟨others, same⟩ := fixed
    simp [same, plain]

theorem walkPath_segments (segment : List Char) (more : List (List Char))
    (good : ∀ other ∈ segment :: more, Segment kind other) (single : SingleSlash kind segment more) {b : PathBuilder}
    (root : b.path = ['/']) {rest : List Char} (tail : IsTail rest) :
    walkPath kind b (segment ++ slashed more ++ rest) = (b.walked kind segment more, rest) := by
  have fueled : more.length < (segment ++ slashed more ++ rest).length + 1 := by
    have shorter := length_le_length_slashed more
    simp only [List.length_append]
    omega
  have read := readPath_segments segment more good fueled (by rw [root]; rfl) tail
  have drive : drives kind b segment = (kind == .file && isDrive segment) := by
    simp [drives, root]
  have path : b.path ++ (if drives kind b segment then segment.take 1 ++ [':'] else segment) ++ slashed more =
      slashed (fixDrive kind segment :: more) := by
    rw [drive, root, fixDrive]
    cases kind <;> simp
  rw [path, drive] at read
  simp only [walkPath, read]
  split
  next file =>
    have first := good segment List.mem_cons_self
    rw [collapse_fixed first single file]
    rfl
  next => rfl

theorem walkPath_root {b : PathBuilder} (empty : b.path = []) (rest : List Char) :
    walkPath kind b ('/' :: rest) = walkPath kind { b with path := ['/'] } rest := by
  simp only [walkPath, List.length_cons, readPath_root kind _ empty]

theorem first?_of_not_fold {c : Char} (plain : isFold c = false) (rest : List Char) :
    first? (c :: rest) = some (c, rest) := by
  simp [first?, plain]

theorem pathBehind_segments (authority : Option Authority) (segment : List Char) (more : List (List Char))
    (good : ∀ other ∈ segment :: more, Segment kind other) (single : SingleSlash kind segment more)
    {rest : List Char} (tail : IsTail rest) :
    pathBehind kind (builder authority []) (slashed (segment :: more) ++ rest) =
      ((builder authority []).walked kind segment more, rest) := by
  have slash : first? (slashed (segment :: more) ++ rest) = some ('/', segment ++ slashed more ++ rest) := by
    rw [slashed_cons, List.cons_append, List.cons_append]
    exact first?_of_not_fold (by decide) _
  have fromRoot : walkPath kind { builder authority [] with path := ['/'] } (segment ++ slashed more ++ rest) =
      ((builder authority []).walked kind segment more, rest) :=
    walkPath_segments segment more good single rfl tail
  have fromEmpty : walkPath kind (builder authority []) (slashed (segment :: more) ++ rest) =
      ((builder authority []).walked kind segment more, rest) := by
    rw [slashed_cons, List.cons_append, List.cons_append, walkPath_root rfl]
    exact fromRoot
  simp only [pathBehind, slash, Option.map_some]
  by_cases other : kind = .other
  · rw [if_pos other, if_neg (by decide), if_neg (by simp)]
    exact fromEmpty
  · rw [if_neg other]
    split
    · exact fromEmpty
    · exact fromRoot

end SpecServer.Uri
