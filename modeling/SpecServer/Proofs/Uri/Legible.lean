import SpecServer.Proofs.Uri.FileReading
set_option autoImplicit false

/-!
What URIs look like that were read from a text. Each has one of four forms, whose parts are told apart again in
its text.
-/

namespace SpecServer.Uri

/-- The forms of the URIs that texts lead to: of a file, with an authority, with a path alone, and with a path that
has no segments. -/
inductive Legible (uri : Uri) : Prop
  | file (host : List Char) (named : ∃ text, fileNamed text = .ok host) (scheme : uri.scheme = fileScheme)
      (authority : uri.authority = some (hostOnly host))
      (path : ∃ rest, uri.path = '/' :: rest ∧ ∀ c ∈ rest, PathChar .file c) (shape : IsFilePath uri.path)
      (encoded : uri.ending.Encoded .file)
  | hosted (authority : Authority) (good : IsAuthority uri.scheme authority) (scheme : IsScheme uri.scheme)
      (free : uri.kind ≠ .file) (same : uri.authority = some authority) (path : IsPath uri.kind uri.path)
      (encoded : uri.ending.Encoded uri.kind)
  | rooted (scheme : IsScheme uri.scheme) (other : uri.kind = .other) (bare : uri.authority = none)
      (path : IsWalked .other uri.path) (encoded : uri.ending.Encoded .other)
  | flat (scheme : IsScheme uri.scheme) (other : uri.kind = .other) (bare : uri.authority = none)
      (path : IsOpaquePath uri.path) (encoded : uri.ending.Encoded .other)

/-! ## Files -/

theorem not_padding_of_pathChars {ending : Ending} (encoded : ending.Encoded .file) {rest : List Char}
    (letters : ∀ c ∈ rest, PathChar .file c) : ∀ c ∈ rest ++ ending.tail, isPadding c = false := by
  intro c member
  rcases List.mem_append.mp member with inside | tail
  · exact not_padding_of_keeps .file (.inl (letters c inside).1)
  · exact encoded.not_padding c tail

theorem isHost_nil (kind : Kind) : IsHost kind [] :=
  .inl (by simp)

theorem pathBehind_file_chars (authority : Option Authority) (input : List Char) :
    ∃ rest, (pathBehind .file (builder authority []) input).1.path = '/' :: rest ∧ ∀ c ∈ rest, PathChar .file c := by
  have fromNothing : ∀ c ∈ (builder authority []).path, PathChar .file c := by simp [builder]
  have fromRoot : ∀ c ∈ [] ++ ['/'], PathChar .file c := by
    intro c member
    obtain rfl := List.mem_singleton.mp member
    exact pathChar_slash .file
  simp only [pathBehind, reduceCtorEq, ↓reduceIte]
  split
  · exact walkPath_file_chars fromNothing input
  · split
    · split
      · exact walkPath_file_chars fromRoot _
      · exact walkPath_file_chars fromRoot _
    · exact walkPath_file_chars fromRoot _

theorem fileNamed_nil : fileNamed [] = .ok [] := rfl

private theorem legible_fileOnPath {path : List Char} (good : ∀ c ∈ path, PathChar .file c) {input : List Char}
    (shape : IsFilePath (fileOnPath [] path input).path) : Legible (fileOnPath [] path input) := by
  refine .file [] ⟨[], fileNamed_nil⟩ rfl rfl ?_ shape ?_
  · exact walkPath_file_chars good input
  · exact Ending.encoded_readTail .file _ _

private theorem legible_fromSlash (input : List Char) : Legible (fileOnPath [] ['/'] input) := by
  refine legible_fileOnPath (fun c member => ?_) (walkPath_file rfl input)
  obtain rfl := List.mem_singleton.mp member
  exact pathChar_slash .file

private theorem legible_fileBehind {host : List Char} (named : ∃ text, fileNamed text = .ok host) {rest : List Char}
    (start : ∀ c after, first? rest = some (c, after) → isAnySlash c = true ∨ endsPath c = true) :
    Legible (fileBehind host rest) := by
  have shape := pathBehind_file (some (hostOnly host)) start
  simp only [fileBehind]
  cases (pathBehind .file (builder (some (hostOnly host)) []) rest).1.hosted with
  | true => exact .file host named rfl rfl (pathBehind_file_chars _ _) shape (Ending.encoded_readTail .file _ _)
  | false =>
    exact .file [] ⟨[], fileNamed_nil⟩ rfl rfl (pathBehind_file_chars _ _) shape (Ending.encoded_readTail .file _ _)

theorem isHost_of_fileNamed {text host : List Char} (named : fileNamed text = .ok host) : IsHost .file host := by
  have unnamed : ∀ found : List Char, IsHost .file found →
      IsHost .file (if found = "localhost".toList then [] else found) := by
    intro found good
    split
    · exact isHost_nil .file
    · exact good
  simp only [fileNamed] at named
  split at named
  · cases named
    exact unnamed [] (isHost_nil .file)
  · cases found : specialHost text with
    | error error =>
      rw [found] at named
      cases named
    | ok name =>
      rw [found] at named
      cases named
      exact unnamed name (isHost_of_specialHost found).1

private theorem legible_fileHost {input : List Char} {uri : Uri} (read : fileHost input = .ok uri) : Legible uri := by
  rw [fileHost_eq] at read
  split at read
  · cases read
    exact legible_fromSlash input
  · cases named : fileNamed (unfold (input.takeWhile fun c => !(isAnySlash c || endsPath c))) with
    | error error =>
      rw [named] at read
      cases read
    | ok host =>
      rw [named] at read
      cases read
      refine legible_fileBehind ⟨_, named⟩ fun c after first => ?_
      cases rest : input.dropWhile fun c => !(isAnySlash c || endsPath c) with
      | nil =>
        rw [rest] at first
        cases first
      | cons d more =>
        have stop := List.head_dropWhile_not (l := input) (fun c => !(isAnySlash c || endsPath c)) (by rw [rest]; simp)
        have ends : (isAnySlash d || endsPath d) = true := by simpa only [rest, List.head_cons, Bool.not_eq_false'] using stop
        have plain : isFold d = false := by
          simp only [isAnySlash, endsPath, Bool.or_eq_true, beq_iff_eq] at ends
          rcases ends with (rfl | rfl) | rfl | rfl <;> rfl
        rw [rest, first?_of_not_fold plain] at first
        cases first
        exact Bool.or_eq_true_iff.mp ends

private theorem legible_readFile {input : List Char} {uri : Uri} (read : readFile none input = .ok uri) :
    Legible uri := by
  have fromRoot : ∀ c after rest, first? input = some (c, after) → isAnySlash c = true →
      Legible (fileFromRoot none input rest) := by
    intro c after rest first slash
    simp only [fileFromRoot, driveOf?, hostOf, Option.bind_none, Option.map_none, Option.getD_none, ite_self]
    refine legible_fileOnPath (by simp) (walkPath_file_start rfl fun d more found => .inl ?_)
    cases first.symm.trans found
    exact slash
  simp only [readFile] at read
  split at read
  next c after first =>
    split at read
    next slash =>
      split at read
      · split at read
        · exact legible_fileHost read
        · cases read
          exact fromRoot c after _ first slash
      · cases read
        exact fromRoot c after _ first slash
    · cases read
      exact legible_fromSlash input
  · cases read
    exact legible_fromSlash input

/-! ## Other schemes -/

/-- A special scheme's URI has a host, and every text behind it leads to a path of segments. -/
theorem pathBehind_special_yields {authority : Authority} (named : authority.host ≠ []) (input : List Char) :
    IsWalked .special (pathBehind .special (builder (some authority) []) input).1.path := by
  have fromRoot : ∀ rest : List Char,
      IsWalked .special (walkPath .special { builder (some authority) [] with path := [] ++ ['/'] } rest).1.path :=
    fun rest => walkPath_yields rfl fun file => absurd file (by decide)
  have bare : (builder (some authority) []).endsInSlash = false := by
    simp only [PathBuilder.endsInSlash, builder, List.getLast?_nil, beq_eq_false_iff_ne, ne_eq, Option.some.injEq]
    rintro rfl
    exact named rfl
  simp only [pathBehind, reduceCtorEq, ↓reduceIte, bare, Bool.false_eq_true]
  split
  · split
    · exact fromRoot _
    · exact fromRoot _
  · exact fromRoot _

private theorem legible_readHierarchy {scheme input : List Char} (good : IsScheme scheme) (free : kindOf scheme ≠ .file)
    {uri : Uri} (read : readHierarchy scheme input = .ok uri) : Legible uri := by
  simp only [readHierarchy, bind, Except.bind, pure, Except.pure] at read
  cases found : readAuthority scheme input with
  | error error =>
    rw [found] at read
    cases read
  | ok result =>
    obtain ⟨authority, rest⟩ := result
    rw [found] at read
    cases read
    have known := readAuthority_yields found
    refine .hosted authority known good free rfl ?_ (Ending.encoded_readTail _ _ _)
    have shape : IsPath (kindOf scheme) (pathBehind (kindOf scheme) (builder (some authority) []) rest).1.path := by
      have named := known.named
      cases kind : kindOf scheme with
      | file => exact absurd kind free
      | other => exact (pathBehind_other_yields (some authority) rest).elim (fun empty => .inr ⟨rfl, empty⟩) .inl
      | special => exact .inl (pathBehind_special_yields (named (by rw [kind]; decide)) rest)
    exact shape

private theorem percentEncode_slash {set : EncodeSet} {text rest : List Char}
    (encoded : percentEncode set text = '/' :: rest) :
    ∃ more, text = '/' :: more := by
  cases text with
  | nil => cases encoded
  | cons c more =>
    have written : percentEncode set (c :: more) = encodeChar set c ++ percentEncode set more := List.flatMap_cons
    rw [written] at encoded
    simp only [encodeChar] at encoded
    split at encoded
    · have long : String.utf8EncodeChar c ≠ [] := by
        have size := Char.utf8Size_pos c
        rw [← String.length_utf8EncodeChar] at size
        exact List.ne_nil_of_length_pos size
      obtain ⟨byte, others, same⟩ := List.exists_cons_of_ne_nil long
      rw [same] at encoded
      have first := (List.cons.inj encoded).1
      exact absurd first (by decide)
    · obtain ⟨rfl, -⟩ := List.cons.inj encoded
      exact ⟨more, rfl⟩

private theorem first?_of_unfold {input rest : List Char}
    (unfolded : unfold (input.takeWhile (!endsPath ·)) = '/' :: rest) :
    ∃ after, first? input = some ('/', after) := by
  induction input with
  | nil => cases unfolded
  | cons c input ih =>
    cases ends : endsPath c with
    | true =>
      simp only [List.takeWhile_cons, ends, Bool.not_true, Bool.false_eq_true, ↓reduceIte] at unfolded
      cases unfolded
    | false =>
      simp only [List.takeWhile_cons, ends, Bool.not_false, ↓reduceIte, unfold, List.filter_cons] at unfolded
      cases fold : isFold c with
      | true =>
        simp only [fold, Bool.not_true, Bool.false_eq_true, ↓reduceIte] at unfolded
        obtain ⟨after, same⟩ := ih unfolded
        refine ⟨after, ?_⟩
        simpa [first?, fold] using same
      | false =>
        simp only [fold, Bool.not_false, ↓reduceIte] at unfolded
        obtain ⟨rfl, -⟩ := List.cons.inj unfolded
        exact ⟨input, first?_of_not_fold fold input⟩

private theorem legible_readOther {scheme input : List Char} (good : IsScheme scheme) (other : kindOf scheme = .other)
    {uri : Uri} (read : readOther scheme input = .ok uri) : Legible uri := by
  have encoded : ∀ path rest, (withTail scheme none path rest).ending.Encoded .other := by
    intro path rest
    have known := Ending.encoded_readTail (kindOf scheme) path rest
    rw [other] at known
    simpa [withTail, ending, other] using known
  simp only [readOther] at read
  split at read
  next rest _ => exact legible_readHierarchy good (by rw [other]; decide) read
  · split at read
    next rest _ =>
      cases read
      refine .rooted good other rfl ?_ (encoded _ _)
      exact walkPath_yields rfl fun file => absurd file (by decide)
    next single =>
      cases read
      refine .flat good other rfl ⟨?_, ?_, ?_⟩ (encoded _ _)
      · exact fun c member => keeps_of_mem_percentEncode stable_controls member
      · intro c member
        rcases mem_percentEncode member with ⟨inside, -⟩ | rfl | ⟨n, small, rfl⟩
        · simpa using List.all_eq_true.mp List.all_takeWhile c (List.mem_filter.mp inside).1
        · decide
        · exact (show ∀ n < 16, endsPath (hexDigit n) = false by decide) n small
      · intro rest slash
        obtain ⟨more, unfolded⟩ := percentEncode_slash slash
        obtain ⟨after, first⟩ := first?_of_unfold unfolded
        exact single after first

theorem legible_parse {text : String} {uri : Uri} (parsed : parse text = .ok uri) : Legible uri := by
  simp only [parse, read] at parsed
  split at parsed
  next scheme rest found =>
    have good := schemeFrom?_yields (.inl rfl) found
    simp only [readScheme] at parsed
    split at parsed
    next file => exact legible_readFile parsed
    next other => exact legible_readOther good other parsed
    next special => exact legible_readHierarchy good (by rw [special]; decide) parsed
  · cases parsed

end SpecServer.Uri
