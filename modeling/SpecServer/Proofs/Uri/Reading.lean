import SpecServer.Proofs.Uri.Ending
import SpecServer.Proofs.Uri.Scheme
import SpecServer.Proofs.Uri.Site
set_option autoImplicit false

/-!
Reading texts that are made of a scheme, perhaps a site, and an ending. The scheme and the ending come back as they
stand; only the site is looked at.
-/

namespace SpecServer.Uri

variable {kind : Kind} {scheme : List Char} {site : Site} {ending : Ending}

def assembled (scheme : List Char) (authority : Option Authority) (ending : Ending) : Uri :=
  ⟨scheme, authority, ending.path, ending.query, ending.fragment⟩

/-! ## The start of an ending -/

theorem IsPath.start (path : IsPath kind ending.path) :
    (∃ rest, ending.text = '/' :: rest) ∨ kind = .other ∧ ending.path = [] ∧ ending.text = ending.tail := by
  rcases path with ⟨segment, more, same, -, -⟩ | ⟨other, empty⟩
  · exact .inl ⟨segment ++ slashed more ++ ending.tail, by rw [Ending.text, same]; rfl⟩
  · exact .inr ⟨other, empty, by rw [Ending.text, empty]; rfl⟩

private theorem endsAuthority_of_text (path : IsPath (kindOf scheme) ending.path) :
    ∀ c more, ending.text = c :: more → endsAuthority (kindOf scheme) c = true := by
  intro c more same
  rcases path.start with ⟨rest, slash⟩ | ⟨-, -, tail⟩
  · rw [slash] at same
    obtain ⟨rfl, -⟩ := List.cons.inj same
    rfl
  · rw [tail] at same
    rcases ending.isTail_tail with empty | ⟨d, others, shape, ends⟩
    · cases empty.symm.trans same
    · obtain ⟨rfl, -⟩ := List.cons.inj (shape.symm.trans same)
      simp only [endsAuthority, ends, Bool.or_true]

private theorem first?_tail (ending : Ending) :
    (first? ending.tail).map Prod.fst = none ∨ (first? ending.tail).map Prod.fst = some '?' ∨
      (first? ending.tail).map Prod.fst = some '#' := by
  rcases ending.isTail_tail with empty | ⟨c, more, shape, ends⟩
  · rw [empty]
    exact .inl rfl
  · simp only [endsPath, Bool.or_eq_true, beq_iff_eq] at ends
    rw [shape]
    rcases ends with rfl | rfl
    · exact .inr (.inl rfl)
    · exact .inr (.inr rfl)

theorem IsPath.not_padding (path : IsPath kind ending.path) (encoded : ending.Encoded kind) :
    ∀ c ∈ ending.text, isPadding c = false := by
  intro c member
  rcases List.mem_append.mp member with inside | behind
  · rcases path with ⟨segment, more, same, good, -⟩ | ⟨-, empty⟩
    · rw [same] at inside
      obtain ⟨part, among, belongs⟩ := List.mem_flatMap.mp inside
      rcases List.mem_cons.mp belongs with rfl | letter
      · decide
      · exact not_padding_of_keeps kind (.inl ((good part among).kept c letter))
    · rw [empty] at inside
      cases inside
  · exact encoded.not_padding c behind

theorem dropEndWhile_of_not_padding {text : List Char} (plain : ∀ c ∈ text, isPadding c = false) :
    Text.dropEndWhile isPadding text = text :=
  dropEndWhile_of_last fun c last => plain c (List.mem_of_getLast? last)

/-! ## With a site -/

private theorem pathBehind_ending (free : kind ≠ .file) (path : IsPath kind ending.path)
    (authority : Option Authority) :
    ∃ built, pathBehind kind (builder authority []) ending.text = (built, ending.tail) ∧ built.path = ending.path := by
  rcases path with ⟨segment, more, same, good, single⟩ | ⟨other, empty⟩
  · refine ⟨(builder authority []).walked kind segment more, ?_, ?_⟩
    · rw [Ending.text, same]
      exact pathBehind_segments authority segment more good single ending.isTail_tail
    · simp [PathBuilder.walked, fixDrive, free, same]
  · refine ⟨builder authority [], ?_, by rw [empty]; rfl⟩
    subst other
    rw [Ending.text, empty, List.nil_append]
    simp only [pathBehind, ↓reduceIte]
    rcases first?_tail ending with none | question | number
    · have nothing : ending.tail = [] := by
        rcases ending.isTail_tail with nothing | ⟨c, more, shape, ends⟩
        · exact nothing
        · have calm : isFold c = false := by
            simp only [endsPath, Bool.or_eq_true, beq_iff_eq] at ends
            rcases ends with rfl | rfl <;> decide
          rw [shape, first?_of_not_fold calm] at none
          cases none
      have single : isSingleDot [] = false := by decide
      have double : isDoubleDot [] = false := by decide
      rw [nothing]
      simp [first?, walkPath, readPath, pieces, Text.splitAt, segmentPieces, percentEncode, PathBuilder.add, single,
        double, builder]
    · rw [if_pos (.inl question)]
    · rw [if_pos (.inr number)]

private theorem readHierarchy_site (free : kindOf scheme ≠ .file) (legible : site.Legible)
    (path : IsPath (kindOf scheme) ending.path) (encoded : ending.Encoded (kindOf scheme)) :
    readHierarchy scheme (site.text ++ ending.text) =
      (site.read scheme).map fun authority => assembled scheme (some authority) ending := by
  simp only [readHierarchy, legible.readAuthority scheme (endsAuthority_of_text path), bind, Except.bind]
  cases site.read scheme with
  | error error => rfl
  | ok authority =>
    obtain ⟨built, read, same⟩ := pathBehind_ending free path (some authority)
    simp only [Except.map, read, same, encoded.withTail]
    rfl

private theorem leadingSlashes_two {c : Char} (slash : isAnySlash c = false) (fold : isFold c = false)
    (rest : List Char) :
    leadingSlashes ('/' :: '/' :: c :: rest) = (2, c :: rest) := by
  simp [leadingSlashes, slash, fold, show isAnySlash '/' = true by decide]

/-- Outside files, the scheme and the ending around a site come back as they stand. -/
theorem parse_site (good : IsScheme scheme) (free : kindOf scheme ≠ .file) (legible : site.Legible)
    (named : kindOf scheme ≠ .other → site.host ≠ []) (path : IsPath (kindOf scheme) ending.path)
    (encoded : ending.Encoded (kindOf scheme)) :
    parse (String.ofList (scheme ++ ':' :: '/' :: '/' :: (site.text ++ ending.text))) =
      (site.read scheme).map fun authority => assembled scheme (some authority) ending := by
  have kept : Text.dropEndWhile isPadding ('/' :: '/' :: (site.text ++ ending.text)) =
      '/' :: '/' :: (site.text ++ ending.text) := by
    refine dropEndWhile_of_not_padding fun c member => ?_
    simp only [List.mem_cons, List.mem_append] at member
    rcases member with rfl | rfl | inside | behind
    · decide
    · decide
    · exact (legible.plain inside).2.2.2
    · exact path.not_padding encoded c behind
  rw [parse_scheme good, kept, ← readHierarchy_site free legible path encoded]
  simp only [readScheme]
  cases kind : kindOf scheme with
  | file => exact absurd kind free
  | other => rfl
  | special =>
    have text : site.text ≠ [] := by
      have host := named (by rw [kind]; decide)
      simp only [Site.text, Site.hosted]
      split <;> simp [host]
    obtain ⟨c, rest, same⟩ := List.exists_cons_of_ne_nil text
    obtain ⟨fold, slash, -, -⟩ := legible.plain (c := c) (by rw [same]; exact List.mem_cons_self)
    simp only [same, List.cons_append, leadingSlashes_two slash fold]

/-! ## Without an authority -/

/-- What keeps a path with two slashes at its start from being taken for an authority. -/
def dotLead (path : List Char) : List Char :=
  if Text.startsWith ['/', '/'] path then ['/', '.'] else []

private theorem dotLead_slashed (segment : List Char) (more : List (List Char)) (inner : '/' ∉ segment) :
    dotLead (slashed (segment :: more)) = [] ∧ (segment = [] → more = []) ∨
      dotLead (slashed (segment :: more)) = ['/', '.'] := by
  cases segment with
  | nil =>
    cases more with
    | nil => exact .inl ⟨rfl, fun _ => rfl⟩
    | cons next others => exact .inr rfl
  | cons c rest =>
    simp only [List.mem_cons, not_or] at inner
    left
    refine ⟨?_, fun empty => (nomatch empty)⟩
    simp [dotLead, Text.startsWith, Text.after?, inner.1]

private theorem afterDoubleSlash?_of_single {rest : List Char} (single : ∀ after, first? rest ≠ some ('/', after)) :
    afterDoubleSlash? ('/' :: rest) = none := by
  have lead : first? ('/' :: rest) = some ('/', rest) := first?_of_not_fold (by decide) rest
  unfold afterDoubleSlash?
  split
  next inner same =>
    obtain rfl := (Prod.mk.inj (Option.some.inj (lead.symm.trans same))).2
    split
    next after found => exact absurd found (single after)
    · rfl
  · rfl

private theorem readPath_dot (fuel : Nat) {b : PathBuilder} (root : b.path = ['/']) (rest : List Char) :
    readPath .other (fuel + 1) b ('.' :: '/' :: rest) = readPath .other fuel b rest := by
  have plain : ∀ c ∈ ['.'], isFold c = false := forall_mem_of_all (by decide)
  have found := segmentPieces_of_free (show Kind.other ≠ .file by decide) b.path ['.']
  rw [unfold_of_not_fold plain] at found
  have encoded : percentEncode .path ['.'] = ['.'] := by decide
  have single : isSingleDot ['.'] = true := by decide
  have double : isDoubleDot ['.'] = false := by decide
  have opened : b.path = [] ++ ['/'] := root
  have slash : b.withSlash = b := withSlash_of_open opened
  have stop : isSlash .other '/' = true := rfl
  have on : isSlash .other '.' = false ∧ endsPath '.' = false := ⟨rfl, rfl⟩
  simp only [readPath, List.takeWhile_cons, List.dropWhile_cons, on.1, on.2, stop, Bool.true_or, Bool.or_self,
    Bool.not_true, Bool.not_false, Bool.false_eq_true, ↓reduceIte, found, encoded, PathBuilder.add, single, double, slash,
    List.drop_one, List.tail_cons]

private theorem readOther_root {rest : List Char} (single : ∀ after, first? rest ≠ some ('/', after))
    (scheme : List Char) :
    readOther scheme ('/' :: rest) =
      .ok (withTail scheme none (walkPath .other (builder none ['/']) rest).1.path
        (walkPath .other (builder none ['/']) rest).2) := by
  have lead : first? ('/' :: rest) = some ('/', rest) := first?_of_not_fold (by decide) rest
  simp only [readOther, afterDoubleSlash?_of_single single, lead]

theorem parse_rooted (good : IsScheme scheme) (other : kindOf scheme = .other) (walked : IsWalked .other ending.path)
    (encoded : ending.Encoded .other) :
    parse (String.ofList (scheme ++ ':' :: (dotLead ending.path ++ ending.text))) = .ok (assembled scheme none ending) := by
  have encoded' : ending.Encoded (kindOf scheme) := by
    rw [other]
    exact encoded
  have kept : Text.dropEndWhile isPadding (dotLead ending.path ++ ending.text) = dotLead ending.path ++ ending.text := by
    refine dropEndWhile_of_not_padding fun c member => ?_
    rcases List.mem_append.mp member with lead | inside
    · simp only [dotLead] at lead
      split at lead
      · exact forall_mem_of_all (show (['/', '.'].all fun d => decide (isPadding d = false)) = true by decide) c lead
      · cases lead
    · exact IsPath.not_padding (.inl walked) encoded c inside
  rw [parse_scheme good, kept]
  simp only [readScheme, other]
  obtain ⟨segment, more, same, segments, single⟩ := walked
  have inner : '/' ∉ segment := fun member => by
    have slash := (segments segment List.mem_cons_self).inner '/' member
    cases slash
  have fromRoot := walkPath_segments segment more segments single (b := builder none ['/']) rfl ending.isTail_tail
  have text : ending.text = '/' :: (segment ++ slashed more ++ ending.tail) := by
    rw [Ending.text, same]
    rfl
  have finished : withTail scheme none ((builder none ['/']).walked .other segment more).path ending.tail =
      assembled scheme none ending := by
    rw [encoded'.withTail, assembled, same]
    rfl
  rcases dotLead_slashed segment more inner with ⟨none, alone⟩ | dotted
  · rw [same, none, List.nil_append, text, readOther_root, fromRoot, finished]
    intro after found
    cases segment with
    | cons c rest =>
      have fold := (segments (c :: rest) List.mem_cons_self).not_fold (c := c) List.mem_cons_self
      rw [List.cons_append, List.cons_append, first?_of_not_fold fold] at found
      cases found
      exact inner List.mem_cons_self
    | nil =>
      rw [alone rfl] at found
      have tail := first?_tail ending
      rw [show first? ending.tail = some ('/', after) from found] at tail
      exact absurd tail (by simp)
  · have dot : ∀ after, first? ('.' :: ending.text) ≠ some ('/', after) := by
      intro after
      rw [first?_of_not_fold (by decide)]
      simp
    have walk : walkPath .other (builder none ['/']) ('.' :: ending.text) =
        walkPath .other (builder none ['/']) (segment ++ slashed more ++ ending.tail) := by
      have fueled : more.length < (segment ++ slashed more ++ ending.tail).length + 1 := by
        have shorter := length_le_length_slashed more
        simp only [List.length_append]
        omega
      have ended : (builder none ['/']).path.getLast? = some '/' := rfl
      rw [text]
      simp only [walkPath, reduceCtorEq, ↓reduceIte, List.length_cons]
      rw [readPath_dot _ rfl, readPath_segments segment more segments (by omega) ended ending.isTail_tail,
        readPath_segments segment more segments fueled ended ending.isTail_tail]
    rw [same, dotted, List.cons_append, List.cons_append, List.nil_append, readOther_root dot, walk, fromRoot, finished]

/-- A path without segments, as it is read. -/
structure IsOpaquePath (path : List Char) : Prop where
  kept : ∀ c ∈ path, EncodeSet.controls.Keeps c
  inner : ∀ c ∈ path, endsPath c = false
  start : ∀ rest, path ≠ '/' :: rest

theorem IsOpaquePath.left {path front : List Char} (good : IsOpaquePath path) (left : front <+: path) :
    IsOpaquePath front := by
  refine ⟨fun c member => good.kept c (left.subset member), fun c member => good.inner c (left.subset member), ?_⟩
  rintro rest rfl
  obtain ⟨more, same⟩ := left
  exact good.start (rest ++ more) (by rw [← same]; rfl)

private theorem readOther_flat (other : kindOf scheme = .other) (free : IsOpaquePath ending.path)
    (encoded : ending.Encoded .other) : readOther scheme ending.text = .ok (assembled scheme none ending) := by
  have encoded' : ending.Encoded (kindOf scheme) := by
    rw [other]
    exact encoded
  have single : ∀ after, first? ending.text ≠ some ('/', after) := by
    intro after found
    cases path : ending.path with
    | cons c rest =>
      have fold := (free.kept c (by rw [path]; exact List.mem_cons_self)).not_fold stable_controls
      rw [Ending.text, path, List.cons_append, first?_of_not_fold fold] at found
      cases found
      exact free.start rest path
    | nil =>
      have tail := first?_tail ending
      rw [Ending.text, path, List.nil_append] at found
      rw [found] at tail
      exact absurd tail (by simp)
  have on : ∀ c ∈ ending.path, (!endsPath c) = true := by
    intro c member
    rw [free.inner c member]
    rfl
  have front : ending.text.takeWhile (!endsPath ·) = ending.path := by
    rw [Ending.text, List.takeWhile_append_of_pos on]
    rcases ending.isTail_tail with empty | ⟨c, more, shape, ends⟩
    · simp [empty]
    · simp [shape, ends]
  have back : ending.text.dropWhile (!endsPath ·) = ending.tail := by
    rw [Ending.text, List.dropWhile_append_of_pos on]
    rcases ending.isTail_tail with empty | ⟨c, more, shape, ends⟩
    · simp [empty]
    · simp [shape, ends]
  have plain : unfold ending.path = ending.path :=
    unfold_of_not_fold fun c member => (free.kept c member).not_fold stable_controls
  have double : afterDoubleSlash? ending.text = none := by
    unfold afterDoubleSlash?
    split
    next inner found => exact absurd found (single inner)
    · rfl
  unfold readOther
  rw [double]
  split
  next _ _ found => cases found
  · split
    next rest found => exact absurd found (single rest)
    · simp only [front, back, plain, percentEncode_of_keeps free.kept, encoded'.withTail]
      rfl

theorem parse_flat (good : IsScheme scheme) (other : kindOf scheme = .other) (free : IsOpaquePath ending.path)
    (encoded : ending.Encoded .other) :
    parse (String.ofList (scheme ++ ':' :: ending.text)) =
      .ok (assembled scheme none { ending with
        path := if ending.tail = [] then Text.dropEndWhile isPadding ending.path else ending.path }) := by
  rw [parse_scheme good]
  simp only [readScheme, other]
  split
  next bare =>
    have shorter := dropEndWhile_prefix isPadding ending.path
    have read := @readOther_flat scheme { ending with path := Text.dropEndWhile isPadding ending.path } other
      (free.left shorter) ⟨encoded.query, encoded.fragment⟩
    have text : Text.dropEndWhile isPadding ending.text =
        Ending.text { ending with path := Text.dropEndWhile isPadding ending.path } := by
      have same : ending.tail = Ending.tail { ending with path := Text.dropEndWhile isPadding ending.path } := rfl
      rw [Ending.text, Ending.text, ← same, bare, List.append_nil, List.append_nil]
    rw [text, read]
  next some =>
    have last : Text.dropEndWhile isPadding ending.text = ending.text := by
      refine dropEndWhile_of_last fun c final => encoded.not_padding c ?_
      rw [Ending.text, List.getLast?_append, List.getLast?_eq_some_getLast some, Option.some_or] at final
      exact Option.some.inj final ▸ List.getLast_mem some
    rw [last, readOther_flat other free encoded]

end SpecServer.Uri
