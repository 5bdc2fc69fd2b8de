import SpecServer.Proofs.Uri.Yield
set_option autoImplicit false

/-!
What names and dots lead to. A name leads into the folder of any URI that can have one, and two dots lead to the folder
above. Each folder above is lighter than the one below it, unless it is the same, so that the way up has an end.
-/

namespace SpecServer.Uri

variable {kind : Kind} {path : List Char} {uri : Uri} {text : String}

/-! ## Names -/

def stripped (text : String) : List Char :=
  Text.dropEndWhile isPadding (text.toList.dropWhile isPadding)

/-- Whether a reference is the name of something in a folder: it has no scheme, no slash at its start and no drive. -/
def isName (text : String) : Bool :=
  (schemeFrom? [] (stripped text)).isNone && !startsWithDrive (unfold (stripped text)) &&
    (first? (stripped text)).any fun found => !isAnySlash found.1 && found.1 != '?' && found.1 != '#'

/-- What a name leads to from a URI: a walk that starts behind the last slash of its path. -/
def beside (uri : Uri) (input : List Char) : Uri :=
  let popped := popSegment uri.kind uri.path
  let path := if uri.kind ≠ .file ∧ popped.isEmpty then ['/'] else popped
  let (built, tail) := walkPath uri.kind (builder uri.authority path) input
  withTail uri.scheme uri.authority built.path tail

private theorem popSegment_nil (kind : Kind) : popSegment kind [] = [] := by
  cases kind <;> rfl

private theorem join_of_schemeless (schemeless : schemeFrom? [] (stripped text) = none) :
    uri.join text = readReference (some uri) (stripped text) := by
  rw [stripped] at schemeless
  simp only [join, read, stripped, schemeless]

theorem join_of_isName (clear : uri.isOpaque = false) (named : isName text = true) :
    uri.join text = .ok (uri.beside (stripped text)) := by
  simp only [isName, Bool.and_eq_true, Option.isNone_iff_eq_none, Bool.not_eq_true', Option.any_eq_true,
    bne_iff_ne] at named
  obtain ⟨⟨schemeless, plain⟩, ⟨c, after⟩, first, ⟨slash, question⟩, number⟩ := named
  rw [join_of_schemeless schemeless]
  generalize stripped text = input at plain first ⊢
  have unmarked : (first? input).map Prod.fst ≠ some '#' := by
    rw [first, Option.map_some, ne_eq, Option.some.injEq]
    exact number
  simp only [readReference, if_neg unmarked, clear, Bool.false_eq_true, ↓reduceIte]
  by_cases file : uri.kind = .file
  · simp only [readFile, first, slash, if_neg question, if_neg number, plain, beside, file, ne_eq, not_true_eq_false,
      false_and, Bool.false_eq_true, ↓reduceIte]
  · have popped : (if uri.path.isEmpty then [] else popSegment uri.kind uri.path) = popSegment uri.kind uri.path := by
      split
      next empty => rw [List.isEmpty_iff.mp empty, popSegment_nil]
      next => rfl
    simp only [readRelative, first, slash, if_neg question, if_neg number, popped, beside, ne_eq, file, not_false_eq_true,
      true_and, Bool.false_eq_true, ↓reduceIte]

/-! ## The weight of paths -/

/-- The weight of a path: its length, and more if it lacks a slash at its start or at its end. -/
def weight (path : List Char) : Nat :=
  path.length + (if path.head? = some '/' then 0 else 2) + (if path.getLast? = some '/' then 0 else 2)

/-- Whether a path is another one or lighter, and has a slash at its start if that has one. -/
structure Lighter (before after : List Char) : Prop where
  lighter : after = before ∨ weight after < weight before
  rooted : before.head? = some '/' → after.head? = some '/'

private theorem Lighter.refl (path : List Char) : Lighter path path :=
  ⟨.inl rfl, id⟩

private theorem Lighter.trans {first second third : List Char} (left : Lighter first second)
    (right : Lighter second third) :
    Lighter first third := by
  refine ⟨?_, right.rooted ∘ left.rooted⟩
  rcases right.lighter with rfl | less
  · exact left.lighter
  · rcases left.lighter with rfl | more
    · exact .inr less
    · exact .inr (Nat.lt_trans less more)

private theorem splitName_cases (path : List Char) : '/' ∉ path ∧ splitName path = ([], path) ∨
    ∃ lead name, '/' ∉ name ∧ path = lead ++ '/' :: name ∧ splitName path = (lead ++ ['/'], name) := by
  by_cases slash : '/' ∈ path
  · obtain ⟨name, lead, cut, absent⟩ := List.eq_append_cons_of_mem (List.mem_reverse.mpr slash)
    have whole : path = lead.reverse ++ '/' :: name.reverse := by
      rw [← List.reverse_reverse path, cut]
      simp
    have free : '/' ∉ name.reverse := mt List.mem_reverse.mp absent
    exact .inr ⟨lead.reverse, name.reverse, free, whole, by rw [whole, splitName_of_not_mem _ free]⟩
  · refine .inl ⟨slash, ?_⟩
    have all : ∀ c ∈ path.reverse, (decide (c ≠ '/')) = true := by
      intro c member
      exact decide_eq_true fun same => slash (same ▸ List.mem_reverse.mp member)
    have named : path.reverse.takeWhile (· ≠ '/') = path.reverse := by
      rw [← List.append_nil path.reverse, List.takeWhile_append_of_pos all, List.takeWhile_nil]
    rw [splitName, named, List.reverse_reverse, Nat.sub_self, List.take_zero]

private theorem lighter_beginning (lead more : List Char) : Lighter (lead ++ '/' :: more) (lead ++ ['/']) := by
  have head : (lead ++ '/' :: more).head? = (lead ++ ['/']).head? := by cases lead <;> rfl
  refine ⟨?_, fun rooted => head ▸ rooted⟩
  cases more with
  | nil => exact .inl rfl
  | cons c more =>
    refine .inr ?_
    simp only [weight, head, List.getLast?_concat, ↓reduceIte, List.length_append, List.length_cons, List.length_nil]
    omega

private theorem lighter_popSegment (kind : Kind) (path : List Char) : Lighter path (popSegment kind path) := by
  rcases splitName_cases path with ⟨free, cut⟩ | ⟨lead, name, free, rfl, cut⟩
  · simp only [popSegment, cut]
    split
    · exact .refl path
    · cases path with
      | nil => exact .refl _
      | cons c rest =>
        have head : (c :: rest).head? ≠ some '/' := fun same => free (List.mem_of_head? same)
        have last : (c :: rest).getLast? ≠ some '/' := fun same => free (List.mem_of_getLast? same)
        refine ⟨.inr ?_, fun rooted => absurd rooted head⟩
        simp only [weight, if_neg head, if_neg last, List.length_cons, List.head?_nil, List.getLast?_nil, List.length_nil,
          reduceCtorEq, ↓reduceIte]
        omega
  · simp only [popSegment, cut]
    split
    · exact .refl _
    · exact lighter_beginning lead name

def above (kind : Kind) (path : List Char) : List Char :=
  popSegment kind (if path.getLast? = some '/' ∧ canDropSlash path then path.dropLast else path)

private theorem path_up (b : PathBuilder) (kind : Kind) : (b.up kind false).path = above kind b.path := by
  have ends : (b.endsInSlash && canDropSlash b.path) = decide (b.path.getLast? = some '/' ∧ canDropSlash b.path) := by
    cases last : b.path.getLast? with
    | none =>
      rw [List.getLast?_eq_none_iff.mp last]
      simp [canDropSlash, splitName]
    | some c => simp [PathBuilder.endsInSlash, last, Bool.beq_eq_decide_eq]
  have popped : ∀ path : List Char, (if path.isEmpty then path else popSegment kind path) = popSegment kind path := by
    intro path
    split
    next empty => rw [List.isEmpty_iff.mp empty, popSegment_nil]
    next => rfl
  simp only [PathBuilder.up, above, ends, decide_eq_true_eq, popped, Bool.false_eq_true, ↓reduceIte]

private theorem lighter_above (kind : Kind) (path : List Char) : Lighter path (above kind path) := by
  simp only [above]
  split
  next drops =>
    obtain ⟨front, rfl⟩ := List.getLast?_eq_some_iff.mp drops.1
    have drop := drops.2
    rw [List.dropLast_concat]
    rcases splitName_cases front with ⟨free, cut⟩ | ⟨lead, name, free, rfl, cut⟩
    · simp only [canDropSlash, List.dropLast_concat, cut, List.isEmpty_nil, Bool.not_true, Bool.false_and,
        Bool.false_eq_true] at drop
    · simp only [canDropSlash, List.dropLast_concat, cut, Bool.and_eq_true, Bool.not_eq_true'] at drop
      simp only [popSegment, cut, not_isPlainDrive_of_startsWithDrive drop.2, Bool.and_false, Bool.false_eq_true, ↓reduceIte]
      rw [List.append_assoc, List.cons_append]
      exact lighter_beginning lead _
  next => exact lighter_popSegment kind path

private theorem lighter_close (opened : path.getLast? ≠ some '/') : Lighter path (path ++ ['/']) := by
  cases path with
  | nil => exact ⟨.inr (by decide), nofun⟩
  | cons first rest =>
    refine ⟨.inr ?_, id⟩
    rw [weight, weight, if_neg opened, List.getLast?_concat, if_pos rfl, List.length_append, List.length_singleton,
      List.cons_append, List.head?_cons, List.head?_cons]
    omega

private theorem lighter_ending (front more : List Char) : Lighter ('/' :: (front ++ more)) ('/' :: more) := by
  cases front with
  | nil => exact .refl _
  | cons c front =>
    refine ⟨.inr ?_, fun _ => rfl⟩
    cases more with
    | nil =>
      have root : weight ['/'] = 1 := rfl
      rw [root, weight, List.length_cons, List.length_append, List.length_cons]
      omega
    | cons d more =>
      have last : ('/' :: (c :: front ++ d :: more)).getLast? = ('/' :: d :: more).getLast? := by
        simp [List.getLast?_append, List.getLast?_cons]
      simp only [weight, last, List.head?_cons, List.length_cons, List.length_append]
      omega

/-- A path with a slash behind it, if it is nothing but a drive. -/
def closeDrive (path : List Char) : List Char :=
  if isPlainDrive (path.drop 1) then path ++ ['/'] else path

private theorem lighter_closeDrive (path : List Char) : Lighter path (closeDrive path) := by
  simp only [closeDrive]
  split
  next drive =>
    refine lighter_close fun slash => ?_
    rw [not_isPlainDrive_of_slash slash] at drive
    cases drive
  next => exact .refl path

def collapse (path : List Char) : List Char :=
  '/' :: path.dropWhile (· == '/')

private theorem lighter_collapse (path : List Char) : Lighter path (collapse path) := by
  refine ⟨?_, fun _ => rfl⟩
  match path with
  | [] => exact .inr (by decide)
  | first :: rest =>
    by_cases slash : first = '/'
    · subst slash
      have same : collapse ('/' :: rest) = '/' :: rest.dropWhile (· == '/') := rfl
      have whole := (List.takeWhile_append_dropWhile (p := (· == '/')) (l := rest)).symm
      rw [same]
      generalize rest.takeWhile (· == '/') = front, rest.dropWhile (· == '/') = more at whole ⊢
      rw [whole]
      exact (lighter_ending front more).lighter
    · have head : (first :: rest).head? ≠ some '/' := by simpa using slash
      rw [collapse, List.dropWhile_cons_of_neg (by simpa using slash)]
      refine .inr ?_
      rw [weight, weight, if_neg head, List.head?_cons, if_pos rfl, List.getLast?_cons_cons, List.length_cons]
      omega

/-! ## The folder above -/

def parentPath (kind : Kind) (path : List Char) : List Char :=
  if kind = .file then collapse (above .file (closeDrive (popSegment .file path)))
  else above kind (if (popSegment kind path).isEmpty then ['/'] else popSegment kind path)

/-- The folder above: what two dots lead to. -/
def parent (uri : Uri) : Uri :=
  ⟨uri.scheme, uri.authority, parentPath uri.kind uri.path, none, none⟩

private theorem isName_dots : isName ".." = true := by decide +kernel

private theorem segmentPieces_dots (kind : Kind)
    (path : List Char) : segmentPieces kind path ⟨[], false⟩ (pieces ['.', '.']) =
    ⟨['.', '.'], decide (kind = .file) && isPlainDrive (path.drop 1)⟩ := by
  have whole : pieces ['.', '.'] = [['.', '.']] := rfl
  have encoded : percentEncode .path ['.', '.'] = ['.', '.'] := by decide +kernel
  simp only [whole, segmentPieces, encoded, Bool.false_eq_true, ↓reduceIte, List.append_nil, List.isEmpty_cons,
    Bool.not_false, Bool.and_true]
  split
  next closed => rw [closed]; rfl
  next opened => rw [Bool.not_eq_true] at opened; rw [opened]; rfl

private theorem readPath_dots (kind : Kind) (b : PathBuilder) (fuel : Nat) : ∃ found : PathBuilder,
    readPath kind (fuel + 1) b ['.', '.'] = (found, []) ∧
      found.path = above kind (if kind = .file then closeDrive b.path else b.path) := by
  have segment : ['.', '.'].takeWhile (fun c => !(isSlash kind c || endsPath c)) = ['.', '.'] := by cases kind <;> rfl
  have after : ['.', '.'].dropWhile (fun c => !(isSlash kind c || endsPath c)) = [] := by cases kind <;> rfl
  have dots : isDoubleDot ['.', '.'] = true := by decide
  simp only [readPath, segment, after, segmentPieces_dots, PathBuilder.add, dots, Bool.false_eq_true, ↓reduceIte]
  refine ⟨_, rfl, ?_⟩
  rw [path_up]
  by_cases file : kind = .file
  · simp only [file, closeDrive, decide_true, Bool.true_and, ↓reduceIte]
    split <;> rfl
  · simp only [file, decide_false, Bool.false_and, Bool.false_eq_true, ↓reduceIte]

private theorem walkPath_dots (kind : Kind)
    (b : PathBuilder) : ∃ found : PathBuilder, walkPath kind b ['.', '.'] = (found, []) ∧
    found.path = if kind = .file then collapse (above .file (closeDrive b.path)) else above kind b.path := by
  obtain ⟨found, read, path⟩ := readPath_dots kind b 2
  have walked : walkPath kind b ['.', '.'] = if kind = .file then ({ found with path := collapse found.path }, [])
      else (found, []) := by
    simp only [walkPath, List.length_cons, List.length_nil, Nat.reduceAdd, read, collapse]
  rw [walked]
  by_cases file : kind = .file
  · simp only [file, ↓reduceIte] at path ⊢
    exact ⟨_, rfl, congrArg collapse path⟩
  · simp only [file, ↓reduceIte] at path ⊢
    exact ⟨found, rfl, path⟩

theorem join_dots (clear : uri.isOpaque = false) : uri.join ".." = .ok uri.parent := by
  have dots : stripped ".." = ['.', '.'] := by decide +kernel
  rw [join_of_isName clear isName_dots, dots, beside]
  obtain ⟨found, walked, path⟩ := walkPath_dots uri.kind (builder uri.authority
    (if uri.kind ≠ .file ∧ (popSegment uri.kind uri.path).isEmpty then ['/'] else popSegment uri.kind uri.path))
  have parents : found.path = parentPath uri.kind uri.path := by
    rw [path, parentPath, builder]
    split
    next file => rw [if_neg fun apart => apart.1 file, file]
    next other => simp only [other, ne_eq, not_false_eq_true, true_and]
  simp only [walked]
  rw [withTail, parents]
  rfl

/-- The weight of a URI: that of its path, and more if it has a query or a fragment. -/
def rank (uri : Uri) : Nat :=
  weight uri.path + (if uri.query = none ∧ uri.fragment = none then 0 else 1)

private theorem lighter_parentPath (kind : Kind) (path : List Char) : Lighter path (parentPath kind path) := by
  have popped := lighter_popSegment kind path
  simp only [parentPath]
  split
  next file =>
    subst file
    exact ((popped.trans (lighter_closeDrive _)).trans (lighter_above _ _)).trans (lighter_collapse _)
  next =>
    refine popped.trans (.trans ?_ (lighter_above kind _))
    split
    next empty =>
      rw [List.isEmpty_iff.mp empty]
      exact lighter_close nofun
    next => exact .refl _

theorem parent_isOpaque (clear : uri.isOpaque = false) : uri.parent.isOpaque = false := by
  have rooted := (lighter_parentPath uri.kind uri.path).rooted
  simp only [isOpaque, parent, Bool.and_eq_false_iff, bne_eq_false_iff_eq] at clear ⊢
  exact clear.imp_right rooted

/-- The folder above is lighter, unless it is the URI itself. -/
theorem rank_parent (uri : Uri) : uri.parent = uri ∨ rank uri.parent < rank uri := by
  have plain : rank uri.parent = weight (parentPath uri.kind uri.path) := rfl
  rcases (lighter_parentPath uri.kind uri.path).lighter with same | less
  · by_cases bare : uri.query = none ∧ uri.fragment = none
    · refine .inl ?_
      obtain ⟨scheme, authority, path, query, fragment⟩ := uri
      obtain ⟨rfl, rfl⟩ := bare
      simp only [parent, kind, Uri.mk.injEq, true_and, and_true]
      exact same
    · refine .inr ?_
      rw [plain, same, rank, if_neg bare]
      exact Nat.lt_succ_self _
  · exact .inr (plain ▸ Nat.lt_of_lt_of_le less (Nat.le_add_right _ _))

end SpecServer.Uri
