import SpecServer.Proofs.Uri.Reading
set_option autoImplicit false

/-!
Reading the URIs of files. Only the host can be wrong; the path is walked from its first slash, and a drive at its
start takes the place of the host.
-/

namespace SpecServer.Uri

/-! ## What is left behind a path -/

private theorem readPath_rest (kind : Kind) {fuel : Nat} {path rest : List Char}
    (inner : ∀ c ∈ path, endsPath c = false)
    (tail : IsTail rest) (fueled : path.length < fuel) (b : PathBuilder) :
    (readPath kind fuel b (path ++ rest)).2 = rest := by
  induction fuel generalizing path b with
  | zero => exact absurd fueled (Nat.not_lt_zero _)
  | succ fuel ih =>
    have calm : ∀ c more, rest = c :: more → isSlash kind c = false ∧ endsPath c = true := by
      rintro c more rfl
      rcases tail with empty | ⟨d, others, same, ends⟩
      · cases empty
      · obtain ⟨rfl, -⟩ := List.cons.inj same
        refine ⟨?_, ends⟩
        simp only [endsPath, Bool.or_eq_true, beq_iff_eq] at ends
        rcases ends with rfl | rfl <;> cases kind <;> rfl
    -- what the segment at the start leaves of the path
    obtain ⟨segment, after, same, free, stop⟩ : ∃ segment after, path = segment ++ after ∧
        (∀ c ∈ segment, isSlash kind c = false) ∧ ∀ c more, after = c :: more → isSlash kind c = true := by
      refine ⟨path.takeWhile (!isSlash kind ·), path.dropWhile (!isSlash kind ·),
        List.takeWhile_append_dropWhile.symm, fun c member => ?_, fun c more same => ?_⟩
      · simpa using List.all_eq_true.mp List.all_takeWhile c member
      · have first := List.head_dropWhile_not (l := path) (fun c => !isSlash kind c) (by simp [same])
        simpa [same] using first
    subst same
    have on : ∀ c ∈ segment, (!(isSlash kind c || endsPath c)) = true := by
      intro c member
      rw [free c member, inner c (List.mem_append_left _ member)]
      rfl
    have back : (segment ++ after ++ rest).dropWhile (fun c => !(isSlash kind c || endsPath c)) = after ++ rest := by
      rw [List.append_assoc, List.dropWhile_append_of_pos on]
      cases after with
      | nil =>
        cases rest with
        | nil => rfl
        | cons c more => simp [(calm c more rfl).2]
      | cons c more => simp [stop c more rfl]
    simp only [readPath, back]
    cases after with
    | nil =>
      cases rest with
      | nil => rfl
      | cons c more => simp [(calm c more rfl).1]
    | cons c more =>
      simp only [List.cons_append, stop c more rfl, ↓reduceIte, List.drop_one, List.tail_cons]
      refine ih (fun d member => inner d ?_) ?_ _
      · exact List.mem_append_right _ (List.mem_cons_of_mem _ member)
      · simp only [List.length_append, List.length_cons] at fueled
        omega

private theorem pathBehind_file_rest {path rest : List Char} (inner : ∀ c ∈ path, endsPath c = false)
    (tail : IsTail rest)
    (authority : Option Authority) :
    (pathBehind .file (builder authority []) ('/' :: (path ++ rest))).2 = rest := by
  have walk : ∀ (b : PathBuilder) (path : List Char), (∀ c ∈ path, endsPath c = false) →
      (walkPath .file b (path ++ rest)).2 = rest := by
    intro b path inner
    simp only [walkPath, ↓reduceIte]
    exact readPath_rest .file inner tail (by simp only [List.length_append]; omega) b
  have slash : first? ('/' :: (path ++ rest)) = some ('/', path ++ rest) := first?_of_not_fold (by decide) _
  simp only [pathBehind, slash, reduceCtorEq, ↓reduceIte]
  split
  · refine walk _ ('/' :: path) fun c member => ?_
    rcases List.mem_cons.mp member with rfl | inside
    · decide
    · exact inner c inside
  · exact walk _ path inner

/-! ## Hosts of files -/

/-- Reads the host of a file; the own computer has no name. -/
def fileNamed (text : List Char) : Except UriError (List Char) :=
  (if text = [] then .ok [] else specialHost text).map fun named => if named = "localhost".toList then [] else named

def fileBehind (host rest : List Char) : Uri :=
  withTail fileScheme
    (some (if (pathBehind .file (builder (some (hostOnly host)) []) rest).1.hosted then hostOnly host else noHost))
    (pathBehind .file (builder (some (hostOnly host)) []) rest).1.path
    (pathBehind .file (builder (some (hostOnly host)) []) rest).2

private theorem not_isDrive_of_isHost {host : List Char} (good : IsHost .file host) : isDrive host = false := by
  cases drive : isDrive host with
  | false => rfl
  | true =>
    match host, drive with
    | [c, mark], drive =>
      simp only [isDrive, Bool.and_eq_true, Bool.or_eq_true, beq_iff_eq] at drive
      rcases good with name | ⟨inner, same, -⟩
      · have allowed := (name mark (by simp)).allowed
        rcases drive.2 with rfl | rfl <;> exact absurd allowed (by decide)
      · simp only [List.cons_append, List.cons.injEq] at same
        obtain ⟨rfl, -⟩ := same
        exact absurd drive.1 (by decide)

theorem isScheme_file : IsScheme fileScheme :=
  ⟨'f', ['i', 'l', 'e'], rfl, by decide, forall_mem_of_all (by decide)⟩

theorem fileHost_eq (input : List Char) :
    fileHost input =
      if isDrive (unfold (input.takeWhile fun c => !(isAnySlash c || endsPath c))) then .ok (fileOnPath [] ['/'] input)
      else
        (fileNamed (unfold (input.takeWhile fun c => !(isAnySlash c || endsPath c)))).map fun named =>
          fileBehind named (input.dropWhile fun c => !(isAnySlash c || endsPath c)) := by
  simp only [fileHost, fileNamed, bind, pure, Except.pure]
  split
  · rfl
  · generalize unfold (input.takeWhile fun c => !(isAnySlash c || endsPath c)) = text
    cases text with
    | nil => rfl
    | cons c name =>
      simp only [List.isEmpty_cons, Bool.false_eq_true, ↓reduceIte, reduceCtorEq]
      cases specialHost (c :: name) with
      | error error => rfl
      | ok named => rfl

private theorem fileHost_of_isHost {host : List Char} (good : IsHost .file host) {rest : List Char} :
    fileHost (host ++ '/' :: rest) = (fileNamed host).map fun named => fileBehind named ('/' :: rest) := by
  have on : ∀ c ∈ host, (!(isAnySlash c || endsPath c)) = true := by
    intro c member
    obtain ⟨-, slash, ends, -⟩ := (plainChar_of_siteChar (good.siteChar member)).1
    rw [slash, ends]
    rfl
  have stop : (!(isAnySlash '/' || endsPath '/')) = false := rfl
  have front : (host ++ '/' :: rest).takeWhile (fun c => !(isAnySlash c || endsPath c)) = host := by
    rw [List.takeWhile_append_of_pos on, List.takeWhile_cons, stop]
    simp
  have back : (host ++ '/' :: rest).dropWhile (fun c => !(isAnySlash c || endsPath c)) = '/' :: rest := by
    rw [List.dropWhile_append_of_pos on, List.dropWhile_cons, stop]
    simp
  have plain : unfold host = host :=
    unfold_of_not_fold fun c member => (plainChar_of_siteChar (good.siteChar member)).1.1
  rw [fileHost_eq, front, back, plain, not_isDrive_of_isHost good]
  rfl

theorem parse_file {host : List Char} (good : IsHost .file host) {rest : List Char}
    (plain : ∀ c ∈ rest, isPadding c = false) :
    parse (String.ofList (fileScheme ++ ':' :: '/' :: '/' :: (host ++ '/' :: rest))) =
      (fileNamed host).map fun named => fileBehind named ('/' :: rest) := by
  have kept : Text.dropEndWhile isPadding ('/' :: '/' :: (host ++ '/' :: rest)) = '/' :: '/' :: (host ++ '/' :: rest) := by
    refine dropEndWhile_of_not_padding fun c member => ?_
    simp only [List.mem_cons, List.mem_append] at member
    rcases member with rfl | rfl | inside | rfl | behind
    · decide
    · decide
    · exact (plainChar_of_siteChar (good.siteChar inside)).1.2.2.2
    · decide
    · exact plain c behind
  have kind : kindOf fileScheme = .file := by decide
  have first : first? ('/' :: '/' :: (host ++ '/' :: rest)) = some ('/', '/' :: (host ++ '/' :: rest)) :=
    first?_of_not_fold (by decide) _
  have second : first? ('/' :: (host ++ '/' :: rest)) = some ('/', host ++ '/' :: rest) :=
    first?_of_not_fold (by decide) _
  have slash : isAnySlash '/' = true := rfl
  rw [parse_scheme isScheme_file, kept, ← fileHost_of_isHost good]
  simp only [readScheme, kind, readFile, first, second, slash, ↓reduceIte]

/-- Behind a host, a path that was walked is read as it stands once the drive at its start has its colon. -/
theorem fileBehind_segments {ending : Ending} {segment : List Char} {more : List (List Char)}
    (same : ending.path = slashed (segment :: more)) (good : ∀ other ∈ segment :: more, Segment .file other)
    (single : SingleSlash .file segment more) (encoded : ending.Encoded .file) (host : List Char) :
    fileBehind host ending.text =
      assembled fileScheme (some (if isDrive segment then noHost else hostOnly host))
        { ending with path := slashed (fixDrive .file segment :: more) } := by
  have encoded' : ending.Encoded (kindOf fileScheme) := encoded
  rw [fileBehind, Ending.text, same, pathBehind_segments _ segment more good single ending.isTail_tail]
  simp only [PathBuilder.walked, encoded'.withTail, assembled, beq_self_eq_true, Bool.true_and]
  cases isDrive segment with
  | true => simp
  | false =>
    cases host with
    | nil => rfl
    | cons c name => rfl

/-- Behind a host, every path of a file leads to a walked one, and query and fragment stay. -/
theorem fileBehind_chars {ending : Ending} {after : List Char} (slash : ending.path = '/' :: after)
    (letters : ∀ c ∈ after, PathChar .file c) (encoded : ending.Encoded .file) (host : List Char) :
    ∃ authority path, fileBehind host ending.text = assembled fileScheme authority { ending with path := path } ∧
      IsWalked .file path := by
  have encoded' : ending.Encoded (kindOf fileScheme) := encoded
  have text : ending.text = '/' :: (after ++ ending.tail) := by
    rw [Ending.text, slash]
    rfl
  have inner : ∀ c ∈ after, endsPath c = false := by
    intro c member
    have keeps := (letters c member).1
    exact forall_ascii (fun c => EncodeSet.path.Keeps c → endsPath c = false) (by decide +kernel) keeps.2 keeps
  have rest := pathBehind_file_rest inner ending.isTail_tail (some (hostOnly host))
  have walked : IsWalked .file
      (pathBehind .file (builder (some (hostOnly host)) []) ('/' :: (after ++ ending.tail))).1.path := by
    refine pathBehind_yields (some (hostOnly host)) fun _ c member => ?_
    rcases List.mem_append.mp member with path | tail
    · exact (letters c path).1.not_fold stable_path
    · exact Ending.not_fold_of_not_padding (encoded.not_padding c tail)
  refine ⟨(fileBehind host ending.text).authority, _, ?_, walked⟩
  rw [fileBehind, text, rest, encoded'.withTail]
  rfl

end SpecServer.Uri
