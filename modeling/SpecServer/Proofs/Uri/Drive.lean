import SpecServer.Proofs.Uri.Legible
set_option autoImplicit false

/-!
The letter of a drive in lower case. Only the first segment of a path can hold a drive, and writing its letter in
lower case leads from a walked path to a walked path of the same length.
-/

namespace SpecServer.Uri

variable {kind : Kind}

/-- A segment with the letter before a colon at its start in lower case. -/
def lowerSegment : List Char → List Char
  | c :: ':' :: rest => Text.asciiLower c :: ':' :: rest
  | segment => segment

theorem lowerSegment_cases (segment : List Char) :
    (∃ c rest, segment = c :: ':' :: rest ∧ lowerSegment segment = Text.asciiLower c :: ':' :: rest) ∨
      lowerSegment segment = segment := by
  unfold lowerSegment
  split
  next c rest => exact .inl ⟨c, rest, rfl, rfl⟩
  · exact .inr rfl

private theorem kept_asciiLower {c : Char} (keeps : EncodeSet.path.Keeps c) :
    EncodeSet.path.Keeps (Text.asciiLower c) ∧ ∀ kind, isSlash kind c = false → isSlash kind (Text.asciiLower c) = false := by
  refine forall_ascii (fun c => EncodeSet.path.Keeps c → EncodeSet.path.Keeps (Text.asciiLower c) ∧
    ∀ kind, isSlash kind c = false → isSlash kind (Text.asciiLower c) = false) ?_ keeps.2 keeps
  have each : ∀ n < 128, EncodeSet.path.Keeps (Char.ofNat n) →
      EncodeSet.path.Keeps (Text.asciiLower (Char.ofNat n)) ∧
        (isSlash .file (Char.ofNat n) = false → isSlash .file (Text.asciiLower (Char.ofNat n)) = false) ∧
        (isSlash .special (Char.ofNat n) = false → isSlash .special (Text.asciiLower (Char.ofNat n)) = false) ∧
        (isSlash .other (Char.ofNat n) = false → isSlash .other (Text.asciiLower (Char.ofNat n)) = false) := by
    decide +kernel
  intro n small keeps
  obtain ⟨kept, file, special, other⟩ := each n small keeps
  refine ⟨kept, fun kind => ?_⟩
  cases kind with
  | file => exact file
  | special => exact special
  | other => exact other

private theorem Segment.lower {segment : List Char} (good : Segment kind segment) :
    Segment kind (lowerSegment segment) := by
  rcases lowerSegment_cases segment with ⟨c, rest, rfl, lowered⟩ | same
  · rw [lowered]
    obtain ⟨keeps', inner'⟩ := kept_asciiLower (good.kept c List.mem_cons_self)
    have colon : ':' ∈ Text.asciiLower c :: ':' :: rest := by simp
    refine ⟨fun d member => ?_, fun d member => ?_, ?_, ?_⟩
    · rcases List.mem_cons.mp member with rfl | later
      · exact keeps'
      · exact good.kept d (List.mem_cons_of_mem _ later)
    · rcases List.mem_cons.mp member with rfl | later
      · exact inner' kind (good.inner c List.mem_cons_self)
      · exact good.inner d (List.mem_cons_of_mem _ later)
    · exact Bool.eq_false_iff.mpr fun dots => colon_not_mem_of_dots (.inl dots) colon
    · exact Bool.eq_false_iff.mpr fun dots => colon_not_mem_of_dots (.inr dots) colon
  · rw [same]
    exact good

theorem lowerDrive_slashed (segment : List Char) (more : List (List Char)) :
    lowerDrive (slashed (segment :: more)) = slashed (lowerSegment segment :: more) := by
  match segment with
  | [] =>
    match more with
    | [] => rfl
    | [[]] => rfl
    | [] :: _ :: _ => rfl
    | (c :: rest) :: others =>
      simp only [slashed_cons, lowerSegment, List.cons_append, List.nil_append, lowerDrive]
      split
      next same =>
        simp only [List.cons.injEq] at same
        obtain ⟨-, rfl, rfl, rfl⟩ := same
        rfl
      · rfl
  | [c] =>
    match more with
    | [] => rfl
    | _ :: _ => rfl
  | c :: d :: rest =>
    by_cases colon : d = ':'
    · subst colon
      rfl
    · have same : lowerSegment (c :: d :: rest) = c :: d :: rest := by
        unfold lowerSegment
        split
        next shape => exact absurd (List.cons.inj (List.cons.inj shape).2).1 colon
        · rfl
      rw [same]
      simp only [slashed_cons, List.cons_append, lowerDrive]
      split
      next shape =>
        simp only [List.cons.injEq] at shape
        exact absurd shape.2.2.1 colon
      · rfl

private theorem length_lowerSegment (segment : List Char) : (lowerSegment segment).length = segment.length := by
  rcases lowerSegment_cases segment with ⟨c, rest, rfl, lowered⟩ | same
  · rw [lowered]
    rfl
  · rw [same]

theorem length_lowerDrive (path : List Char) : (lowerDrive path).length = path.length := by
  unfold lowerDrive
  split <;> rfl

theorem lowerDrive_lowerDrive (path : List Char) : lowerDrive (lowerDrive path) = lowerDrive path := by
  have cases : (∃ c rest, lowerDrive path = '/' :: Text.asciiLower c :: ':' :: rest) ∨ lowerDrive path = path := by
    unfold lowerDrive
    split
    next c rest => exact .inl ⟨c, rest, rfl⟩
    · exact .inr rfl
  rcases cases with ⟨c, rest, lowered⟩ | same
  · rw [lowered]
    simp only [lowerDrive, asciiLower_asciiLower]
  · rw [same, same]

private theorem fixDrive_lowerSegment {segment : List Char} (changed : lowerSegment segment ≠ segment) :
    fixDrive kind (lowerSegment segment) = lowerSegment segment := by
  rcases lowerSegment_cases segment with ⟨c, rest, rfl, lowered⟩ | same
  · rw [lowered, fixDrive]
    split
    next drive =>
      cases rest with
      | nil => rfl
      | cons d others => exact absurd drive.2 (by simp [isDrive])
    · rfl
  · exact absurd same changed

theorem lower_segments {segment : List Char} {more : List (List Char)}
    (good : ∀ other ∈ segment :: more, Segment kind other) (single : SingleSlash kind segment more) :
    (∀ other ∈ lowerSegment segment :: more, Segment kind other) ∧ SingleSlash kind (lowerSegment segment) more := by
  refine ⟨fun other member => ?_, fun file empty => single file ?_⟩
  · rcases List.mem_cons.mp member with rfl | later
    · exact (good segment List.mem_cons_self).lower
    · exact good other (List.mem_cons_of_mem _ later)
  · have long := length_lowerSegment segment
    rw [empty] at long
    exact List.length_eq_zero_iff.mp long.symm

theorem isWalked_lowerDrive {path : List Char} (walked : IsWalked kind path) : IsWalked kind (lowerDrive path) := by
  obtain ⟨segment, more, rfl, good, single⟩ := walked
  obtain ⟨good', single'⟩ := lower_segments good single
  exact ⟨lowerSegment segment, more, lowerDrive_slashed segment more, good', single'⟩

/-- Walking along a walked path with the letter of its drive in lower case gives it back. -/
theorem pathBehind_lowerDrive {path : List Char} (walked : IsWalked kind path) (changed : lowerDrive path ≠ path)
    (authority : Option Authority) :
    (pathBehind kind (builder authority []) (lowerDrive path)).1.path = lowerDrive path := by
  obtain ⟨segment, more, rfl, good, single⟩ := walked
  obtain ⟨good', single'⟩ := lower_segments good single
  have lowered : lowerSegment segment ≠ segment := by
    intro same
    rw [lowerDrive_slashed, same] at changed
    exact changed rfl
  have read := pathBehind_segments authority (lowerSegment segment) more good' single' (.inl rfl)
  rw [List.append_nil] at read
  rw [lowerDrive_slashed, read, PathBuilder.walked, fixDrive_lowerSegment lowered]

theorem withLowerDrive_of_walked {uri : Uri} (walked : IsWalked uri.kind uri.path) :
    withLowerDrive uri = { uri with path := lowerDrive uri.path } := by
  simp only [withLowerDrive]
  split
  next same => rw [same]
  next changed => rw [pathBehind_lowerDrive walked changed]

theorem length_fixDrive (kind : Kind) (segment : List Char) : (fixDrive kind segment).length = segment.length := by
  unfold fixDrive
  split
  next drive =>
    match segment, drive.2 with
    | [c, mark], _ => rfl
  · rfl

/-- A path is as it is with the letter of its drive in lower case only if its drive has a colon. -/
theorem fixDrive_of_lowered {segment : List Char} {more : List (List Char)}
    (same : lowerDrive (slashed (fixDrive kind segment :: more)) = slashed (segment :: more)) :
    fixDrive kind segment = segment := by
  rw [lowerDrive_slashed, slashed_cons, slashed_cons] at same
  have lowered : lowerSegment (fixDrive kind segment) = segment :=
    (List.cons.inj (List.append_cancel_right same)).2
  unfold fixDrive at lowered ⊢
  split
  next drive =>
    rw [if_pos drive] at lowered
    match segment, drive.2 with
    | [c, mark], _ =>
      have colon : [Text.asciiLower c, ':'] = [c, mark] := lowered
      simp only [List.cons.injEq, and_true] at colon
      rw [colon.2]
      rfl
  · rfl

theorem withLowerDrive_of_same {uri : Uri} (same : lowerDrive uri.path = uri.path) : withLowerDrive uri = uri := by
  rw [withLowerDrive, if_pos same]

theorem lowerDrive_of_start {path : List Char} (start : ∀ rest, path ≠ '/' :: rest) : lowerDrive path = path := by
  unfold lowerDrive
  split
  next rest => exact absurd rfl (start _)
  · rfl

theorem withLowerDrive_eq (uri : Uri) : ∃ path, withLowerDrive uri = { uri with path := path } := by
  simp only [withLowerDrive]
  split
  · exact ⟨uri.path, rfl⟩
  · exact ⟨_, rfl⟩

private theorem lowerDrive_chars {path : List Char} (good : ∃ rest, path = '/' :: rest ∧ ∀ c ∈ rest, PathChar kind c) :
    ∃ rest, lowerDrive path = '/' :: rest ∧ ∀ c ∈ rest, PathChar kind c := by
  obtain ⟨rest, rfl, letters⟩ := good
  unfold lowerDrive
  split
  next c more same =>
    obtain rfl := (List.cons.inj same).2
    refine ⟨_, rfl, fun d member => ?_⟩
    rcases List.mem_cons.mp member with rfl | later
    · have letter := letters c List.mem_cons_self
      obtain ⟨keeps, inner⟩ := kept_asciiLower letter.1
      refine ⟨keeps, fun slash => ?_⟩
      cases plain : isSlash kind c with
      | false => exact absurd slash (by rw [inner kind plain]; decide)
      | true =>
        obtain rfl := letter.2 plain
        rfl
    · exact letters d (List.mem_cons_of_mem _ later)
  · exact ⟨rest, rfl, letters⟩

theorem Legible.withLowerDrive {uri : Uri} (legible : Legible uri) : Legible (Uri.withLowerDrive uri) := by
  cases legible with
  | file host named scheme authority path shape encoded =>
    have kind : uri.kind = .file := by rw [Uri.kind, scheme]; decide
    simp only [Uri.withLowerDrive]
    split
    · exact .file host named scheme authority path shape encoded
    · obtain ⟨rest, lowered, letters⟩ := lowerDrive_chars path
      refine .file host named scheme authority ?_ (.inl ?_) ⟨encoded.query, encoded.fragment⟩
      · rw [kind]
        exact pathBehind_file_chars _ _
      · rw [kind, lowered]
        exact pathBehind_yields _ fun _ c member => (letters c member).1.not_fold stable_path
  | hosted authority good scheme free same path encoded =>
    rcases path with walked | ⟨other, empty⟩
    · rw [withLowerDrive_of_walked walked]
      exact .hosted authority good scheme free same (.inl (isWalked_lowerDrive walked)) ⟨encoded.query, encoded.fragment⟩
    · rw [withLowerDrive_of_same (by rw [empty]; rfl)]
      exact .hosted authority good scheme free same (.inr ⟨other, empty⟩) encoded
  | rooted scheme other bare path encoded =>
    have walked : IsWalked uri.kind uri.path := by
      rw [other]
      exact path
    rw [withLowerDrive_of_walked walked]
    exact .rooted scheme other bare (isWalked_lowerDrive path) ⟨encoded.query, encoded.fragment⟩
  | flat scheme other bare path encoded =>
    rw [withLowerDrive_of_same (lowerDrive_of_start path.start)]
    exact .flat scheme other bare path encoded

theorem Legible.normalize {uri : Uri} (legible : Legible uri) : Legible uri.normalize := by
  simp only [Uri.normalize]
  cases parsed : parse (String.ofList (decodeColons uri.text)) with
  | error error => exact legible.withLowerDrive
  | ok found => exact (legible_parse parsed).withLowerDrive

end SpecServer.Uri
