import SpecServer.Proofs.Uri.Led
set_option autoImplicit false

/-!
What a walk yields: a path of segments, however the text was written. Dots lead up and down, encoded or not, and
what else stands in a segment is encoded.
-/

namespace SpecServer.Uri

variable {kind : Kind}

private theorem segment_nil (kind : Kind) : Segment kind [] :=
  ⟨by simp, by simp, by decide, by decide⟩

theorem slashed_concat (segments : List (List Char)) (segment : List Char) :
    slashed (segments ++ [segment]) = slashed segments ++ '/' :: segment := by
  rw [slashed_append, slashed_cons, slashed_nil, List.append_nil]

private theorem slashed_open (segments : List (List Char)) : slashed segments ++ ['/'] = slashed (segments ++ [[]]) :=
  (slashed_concat segments []).symm

/-! ## One segment up -/

theorem splitName_of_not_mem (lead : List Char) {name : List Char} (absent : '/' ∉ name) :
    splitName (lead ++ '/' :: name) = (lead ++ ['/'], name) := by
  have named : ((lead ++ '/' :: name).reverse.takeWhile (· ≠ '/')).reverse = name := by
    have all : ∀ c ∈ name.reverse, (decide (c ≠ '/')) = true := by
      intro c member
      have differs : c ≠ '/' := fun same => absent (same ▸ List.mem_reverse.mp member)
      simpa using differs
    simp only [List.reverse_append, List.reverse_cons, List.append_assoc]
    rw [List.takeWhile_append_of_pos all]
    simp
  simp only [splitName, named]
  have shorter : (lead ++ '/' :: name).length - name.length = (lead ++ ['/']).length := by
    simp only [List.length_append, List.length_cons, List.length_nil]
    omega
  rw [shorter]
  have cut : lead ++ '/' :: name = (lead ++ ['/']) ++ name := by simp
  rw [cut, List.take_left]

private theorem endsInSlash_of_open {b : PathBuilder} {lead : List Char} (path : b.path = lead ++ ['/']) :
    b.endsInSlash = true := by
  simp [PathBuilder.endsInSlash, path]

theorem withSlash_of_open {b : PathBuilder} {lead : List Char} (path : b.path = lead ++ ['/']) : b.withSlash = b := by
  simp [PathBuilder.withSlash, endsInSlash_of_open path]

theorem not_isPlainDrive_of_startsWithDrive {name : List Char} (starts : startsWithDrive (name ++ ['/']) = false) :
    isPlainDrive name = false := by
  cases plain : isPlainDrive name with
  | false => rfl
  | true =>
    simp only [isPlainDrive] at plain
    split at plain
    next c =>
      have drive : startsWithDrive ([c, ':'] ++ ['/']) = isLetter c := by
        simp [startsWithDrive, isDrive]
      rw [drive, plain] at starts
      cases starts
    next => cases plain

/-- Going up from an open folder leads to an open folder above it, or stays there. -/
theorem up_yields {b : PathBuilder} {segments : List (List Char)} (path : b.path = slashed segments ++ ['/'])
    (good : ∀ segment ∈ segments, Segment kind segment) (slash : Bool) :
    ∃ fewer, (b.up kind slash).path = slashed fewer ++ ['/'] ∧ ∀ segment ∈ fewer, Segment kind segment := by
  have inner : ∀ segment ∈ segments, '/' ∉ segment := by
    intro segment member slash
    exact absurd ((good segment member).inner '/' slash) (by cases kind <;> decide)
  have climbed : ∃ fewer, (if (if b.endsInSlash && canDropSlash b.path then b.path.dropLast else b.path).isEmpty then
        (if b.endsInSlash && canDropSlash b.path then b.path.dropLast else b.path)
      else popSegment kind (if b.endsInSlash && canDropSlash b.path then b.path.dropLast else b.path)) =
        slashed fewer ++ ['/'] ∧ ∀ segment ∈ fewer, Segment kind segment := by
    rw [endsInSlash_of_open path, Bool.true_and]
    by_cases drops : canDropSlash b.path = true
    · rw [if_pos drops]
      rcases List.eq_nil_or_concat segments with rfl | ⟨front, last, rfl⟩
      · rw [path] at drops
        exact absurd drops (by decide)
      · rw [List.concat_eq_append] at path good inner
        have free := inner last (by simp)
        have dropped : b.path.dropLast = slashed front ++ '/' :: last := by
          rw [path, List.dropLast_concat, slashed_concat]
        rw [canDropSlash, dropped, splitName_of_not_mem _ free] at drops
        have plain : isPlainDrive last = false := by
          simp only [Bool.and_eq_true, Bool.not_eq_true'] at drops
          exact not_isPlainDrive_of_startsWithDrive drops.2
        rw [dropped, if_neg (by simp), popSegment, splitName_of_not_mem _ free]
        simp only [plain, Bool.and_false, Bool.false_eq_true, ↓reduceIte]
        exact ⟨front, rfl, fun segment member => good segment (List.mem_append_left _ member)⟩
    · rw [if_neg drops, path, if_neg (by simp), popSegment, splitName_of_not_mem _ (List.not_mem_nil)]
      simp only [isPlainDrive, Bool.and_false, Bool.false_eq_true, ↓reduceIte]
      exact ⟨segments, rfl, good⟩
  obtain ⟨fewer, shorter, stays⟩ := climbed
  refine ⟨fewer, ?_, stays⟩
  simp only [PathBuilder.up, shorter]
  split
  · rw [withSlash_of_open rfl]
  · rfl

/-! ## One segment on -/

theorem ascii_of_isLetter {c : Char} (letter : isLetter c = true) : c.toNat < 128 := by
  simp only [isLetter, Bool.or_eq_true, Bool.and_eq_true, decide_eq_true_eq] at letter
  rcases letter with ⟨-, upper⟩ | ⟨-, upper⟩
  · exact Nat.lt_of_le_of_lt upper (by decide)
  · exact Nat.lt_of_le_of_lt upper (by decide)

theorem drive_segment {c : Char} (letter : isLetter c = true) : Segment kind [c, ':'] := by
  obtain ⟨keeps, inner, single, double⟩ := forall_ascii
    (fun c => isLetter c = true → EncodeSet.path.Keeps c ∧ isSlash .file c = false ∧ isSingleDot [c, ':'] = false ∧
      isDoubleDot [c, ':'] = false)
    (by decide +kernel) (ascii_of_isLetter letter) letter
  have inner' : isSlash kind c = false := by
    simp only [isSlash, Bool.or_eq_false_iff] at inner ⊢
    refine ⟨inner.1, ?_⟩
    rw [Bool.and_eq_false_iff] at inner ⊢
    exact .inl (inner.2.resolve_right (by decide))
  refine ⟨?_, ?_, single, double⟩
  · simpa using ⟨keeps, by decide⟩
  · simpa using ⟨inner', by cases kind <;> decide⟩

/-- A text of kept characters without slashes is a segment unless it is dots. -/
theorem add_yields {b : PathBuilder} {segments : List (List Char)} (path : b.path = slashed segments ++ ['/'])
    (good : ∀ segment ∈ segments, Segment kind segment) {text : List Char}
    (kept : ∀ c ∈ text, EncodeSet.path.Keeps c) (inner : ∀ c ∈ text, isSlash kind c = false) (slash : Bool) :
    ∃ longer, ((b.add kind text slash).path = slashed longer ++ ['/'] ∨
        (slash = false ∧ longer ≠ [] ∧ (b.add kind text slash).path = slashed longer)) ∧
      ∀ segment ∈ longer, Segment kind segment := by
  cases double : isDoubleDot text with
  | true =>
    obtain ⟨fewer, shorter, stays⟩ := up_yields path good slash
    refine ⟨fewer, .inl ?_, stays⟩
    simp only [PathBuilder.add, double, ↓reduceIte, shorter]
  | false =>
    cases single : isSingleDot text with
    | true =>
      refine ⟨segments, .inl ?_, good⟩
      simp only [PathBuilder.add, double, single, Bool.false_eq_true, ↓reduceIte, withSlash_of_open path, path]
    | false =>
      have segment : Segment kind text := ⟨kept, inner, single, double⟩
      rw [add_segment segment]
      have next : Segment kind (if drives kind b text then text.take 1 ++ [':'] else text) := by
        split
        next drive =>
          simp only [drives, Bool.and_eq_true] at drive
          obtain ⟨c, mark, rfl, letter⟩ : ∃ c mark, text = [c, mark] ∧ isLetter c = true := by
            have shape := drive.2
            simp only [isDrive] at shape
            split at shape
            next c mark => exact ⟨c, mark, rfl, (Bool.and_eq_true_iff.mp shape).1⟩
            next => cases shape
          exact drive_segment letter
        next => exact segment
      generalize (if drives kind b text then text.take 1 ++ [':'] else text) = added at next
      refine ⟨segments ++ [added], ?_, ?_⟩
      · rw [path, slashed_concat]
        cases slash with
        | true => exact .inl (by simp)
        | false => exact .inr ⟨rfl, by simp, by simp⟩
      · intro other member
        rcases List.mem_append.mp member with before | last
        · exact good other before
        · obtain rfl := List.mem_singleton.mp last
          exact next

/-! ## A whole text -/

private theorem flatten_pieces (text : List Char) : (pieces text).flatten = unfold text := by
  induction text with
  | nil => rfl
  | cons c rest ih =>
    have nonempty := Text.splitAt_ne_nil '\t' (rest.map fun c => if isFold c then '\t' else c)
    simp only [pieces, List.map_cons, Text.splitAt] at ih ⊢
    cases fold : isFold c with
    | true => simpa [unfold, fold] using ih
    | false =>
      have apart : c ≠ '\t' := by
        rintro rfl
        exact absurd fold (by decide)
      cases cut : Text.splitAt '\t' (rest.map fun c => if isFold c then '\t' else c) with
      | nil => exact absurd cut nonempty
      | cons piece more =>
        rw [cut] at ih
        simpa [unfold, fold, apart] using ih

/-- Outside files the pieces of a segment are encoded one after another. -/
theorem segmentPieces_of_free (free : kind ≠ .file) (path text : List Char) :
    segmentPieces kind path ⟨[], false⟩ (pieces text) = ⟨percentEncode .path (unfold text), false⟩ := by
  rw [← flatten_pieces]
  have along : ∀ (found : List Char) (parts : List (List Char)),
      segmentPieces kind path ⟨found, false⟩ parts = ⟨found ++ percentEncode .path parts.flatten, false⟩ := by
    intro found parts
    induction parts generalizing found with
    | nil => simp [segmentPieces, percentEncode]
    | cons part rest ih =>
      simp only [segmentPieces, free, decide_false, Bool.false_and, Bool.false_eq_true, ↓reduceIte, ih,
        List.flatten_cons, percentEncode_append, List.append_assoc]
  exact along [] (pieces text)

/-- In files that is so, too, unless tabs or line ends follow a drive at the start. -/
theorem segmentPieces_segment (kind : Kind) {path : List Char} (slash : path.getLast? = some '/') (text : List Char) :
    segmentPieces kind path ⟨[], false⟩ (pieces text) = ⟨percentEncode .path (unfold text), false⟩ ∨
      (kind = .file ∧ path = ['/'] ∧ ∃ d ∈ text, isFold d = true) ∧ ∃ c more, isLetter c = true ∧
        segmentPieces kind path ⟨[], false⟩ (pieces text) = ⟨c :: ':' :: '/' :: more, false⟩ := by
  rcases segmentPieces_cases slash [] (pieces text) with whole | ⟨⟨file, root, long⟩, found⟩
  · rw [flatten_pieces, List.nil_append] at whole
    exact .inl whole
  · refine .inr ⟨⟨file, root, Decidable.byContradiction fun plain => ?_⟩, found⟩
    have one := @pieces_of_not_fold text fun d member => Bool.eq_false_iff.mpr fun fold => plain ⟨d, member, fold⟩
    have short := long rfl
    rw [one] at short
    exact absurd short (by simp)

private theorem not_isSlash_of_mem_percentEncode {set : EncodeSet} {text : List Char}
    (inner : ∀ c ∈ text, isSlash kind c = false) {c : Char} (member : c ∈ percentEncode set text) :
    isSlash kind c = false := by
  have digits : ∀ n < 16, isSlash kind (hexDigit n) = false := by cases kind <;> decide
  rcases mem_percentEncode member with ⟨inside, -⟩ | rfl | ⟨n, small, rfl⟩
  · exact inner c inside
  · cases kind <;> decide
  · exact digits n small

def Walks (kind : Kind) (path : List Char) : Prop :=
  ∃ walked, path = slashed walked ∧ walked ≠ [] ∧ ∀ segment ∈ walked, Segment kind segment

private theorem walks_open {path : List Char} {segments : List (List Char)} (opened : path = slashed segments ++ ['/'])
    (good : ∀ segment ∈ segments, Segment kind segment) : Walks kind path := by
  refine ⟨segments ++ [[]], opened.trans (slashed_open segments), by simp, fun segment member => ?_⟩
  rcases List.mem_append.mp member with before | last
  · exact good segment before
  · obtain rfl := List.mem_singleton.mp last
    exact segment_nil kind

/-- A walk from an open folder leads along segments, or the text broke a file's path behind its drive. -/
theorem readPath_cases (fuel : Nat) {b : PathBuilder} {segments : List (List Char)}
    (path : b.path = slashed segments ++ ['/']) (good : ∀ segment ∈ segments, Segment kind segment) (input : List Char) :
    Walks kind (readPath kind fuel b input).1.path ∨
      (kind = .file ∧ ∃ d ∈ input, isFold d = true) ∧ ∃ c, Led c (readPath kind fuel b input).1.path := by
  induction fuel generalizing b segments input with
  | zero => exact .inl (walks_open path good)
  | succ fuel ih =>
    have ended : b.path.getLast? = some '/' := by simp [path]
    have within : ∀ c ∈ input.takeWhile (fun c => !(isSlash kind c || endsPath c)), c ∈ input :=
      fun c member => (List.takeWhile_prefix _).subset member
    have later : ∀ c ∈ input.dropWhile (fun c => !(isSlash kind c || endsPath c)), c ∈ input :=
      fun c member => (List.dropWhile_suffix _).subset member
    have taken : ∀ c ∈ input.takeWhile (fun c => !(isSlash kind c || endsPath c)), isSlash kind c = false := by
      intro c member
      have stays := List.all_eq_true.mp List.all_takeWhile c member
      simp only [Bool.not_eq_true', Bool.or_eq_false_iff] at stays
      exact stays.1
    simp only [readPath]
    generalize input.dropWhile (fun c => !(isSlash kind c || endsPath c)) = after at later
    generalize input.takeWhile (fun c => !(isSlash kind c || endsPath c)) = segment at taken within
    rcases segmentPieces_segment kind ended segment with found | ⟨⟨file, root, d, inside, fold⟩, c, more, letter, found⟩
    · have kept : ∀ c ∈ percentEncode .path (unfold segment), EncodeSet.path.Keeps c :=
        fun c => keeps_of_mem_percentEncode stable_path
      have inner : ∀ c ∈ percentEncode .path (unfold segment), isSlash kind c = false :=
        fun c => not_isSlash_of_mem_percentEncode fun d inside => taken d (List.mem_filter.mp inside).1
      have added := fun slash => add_yields path good kept inner slash
      have closed : Walks kind (b.add kind (percentEncode .path (unfold segment)) false).path := by
        obtain ⟨longer, opened | ⟨-, some, closed⟩, stays⟩ := added false
        · exact walks_open opened stays
        · exact ⟨longer, closed, some, stays⟩
      simp only [found, Bool.false_eq_true, ↓reduceIte]
      cases after with
      | nil => exact .inl closed
      | cons c more =>
        cases slash : isSlash kind c with
        | false =>
          simp only [slash, Bool.false_eq_true, ↓reduceIte]
          exact .inl closed
        | true =>
          simp only [slash, ↓reduceIte, List.drop_one, List.tail_cons]
          obtain ⟨longer, shape, stays⟩ := added true
          have opened := shape.resolve_right fun wrong => absurd wrong.1 (by decide)
          rcases ih opened stays more with walks | ⟨⟨file, d, inside, fold⟩, led⟩
          · exact .inl walks
          · exact .inr ⟨⟨file, d, later d (List.mem_cons_of_mem _ inside), fold⟩, led⟩
    · refine .inr ⟨⟨file, d, within d inside, fold⟩, c, ?_⟩
      have led := @led_add kind c b root letter more
      simp only [found, Bool.false_eq_true, ↓reduceIte]
      cases after with
      | nil => exact led false
      | cons d others =>
        dsimp only
        split
        · exact (led _).readPath fuel _
        · exact led _

private theorem readPath_yields (fuel : Nat) {b : PathBuilder} {segments : List (List Char)}
    (path : b.path = slashed segments ++ ['/']) (good : ∀ segment ∈ segments, Segment kind segment) {input : List Char}
    (plain : kind = .file → ∀ c ∈ input, isFold c = false) : Walks kind (readPath kind fuel b input).1.path := by
  rcases readPath_cases fuel path good input with walks | ⟨⟨file, d, inside, fold⟩, -⟩
  · exact walks
  · exact absurd fold (by rw [plain file d inside]; decide)

/-! ## From the start of a path -/

/-- A path of segments that were walked, with a single slash at its start if it belongs to a file. -/
def IsWalked (kind : Kind) (path : List Char) : Prop :=
  ∃ segment more, path = slashed (segment :: more) ∧ (∀ other ∈ segment :: more, Segment kind other) ∧
    SingleSlash kind segment more

private theorem isWalked_of_segments {walked : List (List Char)} (nonempty : walked ≠ [])
    (good : ∀ segment ∈ walked, Segment kind segment) (free : kind ≠ .file) : IsWalked kind (slashed walked) := by
  obtain ⟨segment, more, rfl⟩ := List.exists_cons_of_ne_nil nonempty
  exact ⟨segment, more, rfl, good, fun file => absurd file free⟩

private theorem isWalked_collapse (kind : Kind) {walked : List (List Char)}
    (good : ∀ segment ∈ walked, Segment kind segment) :
    IsWalked kind ('/' :: (slashed walked).dropWhile (· == '/')) := by
  induction walked with
  | nil => exact ⟨[], [], rfl, by simpa using segment_nil kind, fun _ _ => rfl⟩
  | cons segment rest ih =>
    have later := ih fun other member => good other (List.mem_cons_of_mem _ member)
    cases segment with
    | nil => exact later
    | cons c others =>
      have first := good (c :: others) List.mem_cons_self
      have plain : (c == '/') = false := by
        have inner := first.inner c List.mem_cons_self
        simp only [isSlash, Bool.or_eq_false_iff] at inner
        exact inner.1
      refine ⟨c :: others, rest, by simp [plain], good, fun _ empty => ?_⟩
      cases empty

theorem walkPath_yields {b : PathBuilder} (root : b.path = ['/']) {input : List Char}
    (plain : kind = .file → ∀ c ∈ input, isFold c = false) : IsWalked kind (walkPath kind b input).1.path := by
  have opened : b.path = slashed [] ++ ['/'] := root
  obtain ⟨walked, path, nonempty, good⟩ := readPath_yields (input.length + 1) opened (by simp) plain
  simp only [walkPath]
  split
  next file =>
    simp only [path]
    exact isWalked_collapse kind good
  next free =>
    simp only [path]
    exact isWalked_of_segments nonempty good free

/-- Behind an authority, a text that starts with a slash leads to a path of segments. -/
theorem pathBehind_yields (authority : Option Authority) {rest : List Char}
    (plain : kind = .file → ∀ c ∈ rest, isFold c = false) :
    IsWalked kind (pathBehind kind (builder authority []) ('/' :: rest)).1.path := by
  have fromRoot := walkPath_yields (b := { builder authority [] with path := ['/'] }) rfl plain
  have slash : first? ('/' :: rest) = some ('/', rest) := first?_of_not_fold (by decide) rest
  simp only [pathBehind, slash, Option.map_some]
  by_cases other : kind = .other
  · rw [if_pos other, if_neg (by decide), if_neg (by simp), walkPath_root rfl]
    exact fromRoot
  · rw [if_neg other]
    split
    · rw [walkPath_root rfl]
      exact fromRoot
    · exact fromRoot

private theorem segmentPieces_folds (kind : Kind) (path : List Char) {folds : List Char}
    (all : ∀ c ∈ folds, isFold c = true) :
    segmentPieces kind path ⟨[], false⟩ (pieces folds) = ⟨[], false⟩ := by
  have bare : unfold folds = [] := List.filter_eq_nil_iff.mpr fun c member => by simp [all c member]
  have none : ∀ part ∈ pieces folds, part = [] := List.flatten_eq_nil_iff.mp ((flatten_pieces folds).trans bare)
  generalize pieces folds = parts at none
  induction parts with
  | nil => rfl
  | cons part rest ih =>
    obtain ⟨rfl, later⟩ := List.forall_mem_cons.mp none
    simp only [segmentPieces, List.isEmpty_nil, Bool.not_true, Bool.and_false, Bool.false_and, Bool.false_eq_true,
      ↓reduceIte]
    exact ih later

private theorem folds_go_on {folds : List Char} (all : ∀ c ∈ folds, isFold c = true) :
    ∀ c ∈ folds, (!(isSlash kind c || endsPath c)) = true := by
  intro c member
  have fold := all c member
  simp only [isFold, Bool.or_eq_true, beq_iff_eq] at fold
  rcases fold with (rfl | rfl) | rfl <;> cases kind <;> rfl

private theorem readPath_folds (kind : Kind) (fuel : Nat) {b : PathBuilder} (empty : b.path = []) {folds : List Char}
    (all : ∀ c ∈ folds, isFold c = true) {c : Char} (slash : isSlash kind c = true) (rest : List Char) :
    readPath kind (fuel + 1) b (folds ++ c :: rest) = readPath kind fuel { b with path := ['/'] } rest := by
  have stop : (!(isSlash kind c || endsPath c)) = false := by rw [slash]; rfl
  have added : b.add kind [] true = { b with path := ['/'] } := by
    have single : isSingleDot [] = false := by decide
    have double : isDoubleDot [] = false := by decide
    simp [PathBuilder.add, single, double, empty]
  have front : (folds ++ c :: rest).takeWhile (fun c => !(isSlash kind c || endsPath c)) = folds := by
    rw [List.takeWhile_append_of_pos (folds_go_on all), List.takeWhile_cons, stop]
    simp
  have back : (folds ++ c :: rest).dropWhile (fun c => !(isSlash kind c || endsPath c)) = c :: rest := by
    rw [List.dropWhile_append_of_pos (folds_go_on all), List.dropWhile_cons, stop]
    simp
  simp only [readPath, front, back, segmentPieces_folds kind b.path all, Bool.false_eq_true, ↓reduceIte, slash, added,
    List.drop_one, List.tail_cons]

private theorem readPath_all_folds (kind : Kind) (fuel : Nat) {b : PathBuilder} (empty : b.path = [])
    {folds : List Char}
    (all : ∀ c ∈ folds, isFold c = true) {rest : List Char} (tail : IsTail rest) :
    (readPath kind (fuel + 1) b (folds ++ rest)).1.path = [] := by
  have added : (b.add kind [] false).path = [] := by
    have single : isSingleDot [] = false := by decide
    have double : isDoubleDot [] = false := by decide
    simp [PathBuilder.add, single, double, empty]
  have front : (folds ++ rest).takeWhile (fun c => !(isSlash kind c || endsPath c)) = folds := by
    rw [List.takeWhile_append_of_pos (folds_go_on all)]
    rcases tail with rfl | ⟨c, more, rfl, ends⟩
    · simp
    · simp [ends]
  have back : (folds ++ rest).dropWhile (fun c => !(isSlash kind c || endsPath c)) = rest := by
    rw [List.dropWhile_append_of_pos (folds_go_on all)]
    rcases tail with rfl | ⟨c, more, rfl, ends⟩
    · simp
    · simp [ends]
  simp only [readPath, front, back, segmentPieces_folds kind b.path all, Bool.false_eq_true, ↓reduceIte]
  rcases tail with rfl | ⟨c, more, rfl, ends⟩
  · exact added
  · have calm : isSlash kind c = false := by
      simp only [endsPath, Bool.or_eq_true, beq_iff_eq] at ends
      rcases ends with rfl | rfl <;> cases kind <;> rfl
    simp only [calm, Bool.false_eq_true, ↓reduceIte]
    exact added

/-- Outside files and special schemes, every text behind an authority leads to a path of segments, or to none. -/
theorem pathBehind_other_yields (authority : Option Authority) (input : List Char) :
    (pathBehind .other (builder authority []) input).1.path = [] ∨
      IsWalked .other (pathBehind .other (builder authority []) input).1.path := by
  have folds : ∀ c ∈ input.takeWhile isFold, isFold c = true := fun c => List.all_eq_true.mp List.all_takeWhile c
  have cut : input.takeWhile isFold ++ input.dropWhile isFold = input := List.takeWhile_append_dropWhile
  simp only [pathBehind, ↓reduceIte]
  split
  · exact .inl rfl
  next free =>
    split
    · exact .inr (walkPath_yields rfl fun file => absurd file (by decide))
    next slash =>
      cases rest : input.dropWhile isFold with
      | nil =>
        rw [rest] at cut
        left
        rw [← cut]
        exact readPath_all_folds .other _ rfl folds (.inl rfl)
      | cons c others =>
        have first : first? input = some (c, others) := by simp [first?, rest]
        have lead : c = '/' := by simpa [first] using slash
        subst lead
        rw [rest] at cut
        right
        rw [← cut]
        have opened : ({ builder authority [] with path := ['/'] } : PathBuilder).path = slashed [] ++ ['/'] := rfl
        obtain ⟨walked, path, nonempty, good⟩ : Walks .other (readPath .other
            (input.takeWhile isFold ++ '/' :: others).length { builder authority [] with path := ['/'] } others).1.path :=
          readPath_yields _ opened (by simp) fun file => absurd file (by decide)
        simp only [walkPath, reduceCtorEq, ↓reduceIte]
        rw [readPath_folds .other _ rfl folds rfl, path]
        exact isWalked_of_segments nonempty good (by decide)

/-! ## Paths of files -/

/-- The path of a file, however it was written: walked, or led by a drive. -/
def IsFilePath (path : List Char) : Prop :=
  IsWalked .file path ∨ ∃ c, Led c path

theorem Led.collapse {c : Char} {path : List Char} (led : Led c path) :
    '/' :: path.dropWhile (· == '/') = path := by
  obtain ⟨letter, rest, rfl⟩ := led
  have apart : (c == '/') = false := by
    rw [beq_eq_false_iff_ne]
    rintro rfl
    exact absurd letter (by decide)
  simp [apart]

theorem walkPath_file {b : PathBuilder} (root : b.path = ['/']) (input : List Char) :
    IsFilePath (walkPath .file b input).1.path := by
  have opened : b.path = slashed [] ++ ['/'] := root
  simp only [walkPath, ↓reduceIte]
  rcases readPath_cases (input.length + 1) opened (by simp) input with ⟨walked, path, -, good⟩ | ⟨-, c, led⟩
  · rw [path]
    exact .inl (isWalked_collapse .file good)
  · exact .inr ⟨c, by rwa [led.collapse]⟩

private theorem isSlash_file (c : Char) : isSlash .file c = isAnySlash c := by
  rw [isSlash, isAnySlash, show (Kind.file != Kind.other) = true from rfl, Bool.and_true]

private theorem first?_cases (input : List Char) :
    ∃ folds rest, input = folds ++ rest ∧ (∀ c ∈ folds, isFold c = true) ∧
      (rest = [] ∧ first? input = none ∨ ∃ c after, rest = c :: after ∧ first? input = some (c, after)) := by
  refine ⟨input.takeWhile isFold, input.dropWhile isFold, List.takeWhile_append_dropWhile.symm,
    fun c => List.all_eq_true.mp List.all_takeWhile c, ?_⟩
  simp only [first?]
  cases input.dropWhile isFold with
  | nil => exact .inl ⟨rfl, rfl⟩
  | cons c after => exact .inr ⟨c, after, rfl, rfl⟩

theorem walkPath_file_start {b : PathBuilder} (empty : b.path = []) {input : List Char}
    (start : ∀ c after, first? input = some (c, after) → isAnySlash c = true ∨ endsPath c = true) :
    IsFilePath (walkPath .file b input).1.path := by
  have nothing : IsFilePath ['/'] := .inl ⟨[], [], rfl, by simpa using segment_nil .file, fun _ _ => rfl⟩
  obtain ⟨folds, rest, cut, all, ⟨rfl, -⟩ | ⟨c, after, rfl, first⟩⟩ := first?_cases input
  · have none := readPath_all_folds .file input.length empty all (show IsTail [] from .inl rfl)
    rw [← cut] at none
    simp only [walkPath, ↓reduceIte, none]
    exact nothing
  · rcases start c after first with slash | ends
    · have opened : ({ b with path := ['/'] } : PathBuilder).path = slashed [] ++ ['/'] := rfl
      have lead := readPath_folds .file input.length empty all ((isSlash_file c).trans slash) after
      rw [← cut] at lead
      simp only [walkPath, ↓reduceIte, lead]
      rcases readPath_cases input.length opened (by simp) after with ⟨walked, path, -, good⟩ | ⟨-, d, led⟩
      · rw [path]
        exact .inl (isWalked_collapse .file good)
      · exact .inr ⟨d, by rwa [led.collapse]⟩
    · have none := readPath_all_folds .file input.length empty all (show IsTail (c :: after) from .inr ⟨c, after, rfl, ends⟩)
      rw [← cut] at none
      simp only [walkPath, ↓reduceIte, none]
      exact nothing

theorem pathBehind_file (authority : Option Authority) {input : List Char}
    (start : ∀ c after, first? input = some (c, after) → isAnySlash c = true ∨ endsPath c = true) :
    IsFilePath (pathBehind .file (builder authority []) input).1.path := by
  simp only [pathBehind, reduceCtorEq, ↓reduceIte]
  split
  · exact walkPath_file_start rfl start
  · split
    · split
      · exact walkPath_file rfl _
      · exact walkPath_file rfl _
    · exact walkPath_file rfl _

/-! ## What a path is written with -/

/-- A character of a path: one that paths keep, and a slash only in its own form. -/
def PathChar (kind : Kind) (c : Char) : Prop :=
  EncodeSet.path.Keeps c ∧ (isSlash kind c = true → c = '/')

theorem pathChar_slash (kind : Kind) : PathChar kind '/' :=
  ⟨by decide, fun _ => rfl⟩

theorem pathChar_colon (kind : Kind) : PathChar kind ':' :=
  ⟨by decide, fun slash => by cases kind <;> exact absurd slash (by decide)⟩

private theorem pathChar_of_mem_percentEncode {text : List Char} (inner : ∀ c ∈ text, isSlash kind c = false) {c : Char}
    (member : c ∈ percentEncode .path text) : PathChar kind c := by
  refine ⟨keeps_of_mem_percentEncode stable_path member, fun slash => ?_⟩
  exact absurd slash (by simp [not_isSlash_of_mem_percentEncode inner member])

private theorem mem_withSlash {b : PathBuilder} {c : Char} (member : c ∈ b.withSlash.path) : c ∈ b.path ∨ c = '/' := by
  simp only [PathBuilder.withSlash] at member
  split at member
  · exact .inl member
  · simpa using member

private theorem mem_popSegment {path : List Char} {c : Char} (member : c ∈ popSegment kind path) : c ∈ path := by
  have cases : c ∈ (if kind = .file && isPlainDrive (splitName path).2 then path else (splitName path).1) := member
  split at cases
  · exact cases
  · exact List.mem_of_mem_take cases

private theorem mem_up {b : PathBuilder} {slash : Bool} {c : Char} (member : c ∈ (b.up kind slash).path) :
    c ∈ b.path ∨ c = '/' := by
  have shorter : ∀ path : List Char, (∀ d ∈ path, d ∈ b.path) →
      ∀ d ∈ (if path.isEmpty then path else popSegment kind path), d ∈ b.path := by
    intro path part d inside
    split at inside
    · exact part d inside
    · exact part d (mem_popSegment inside)
  have part : ∀ d ∈ (if b.endsInSlash && canDropSlash b.path then b.path.dropLast else b.path), d ∈ b.path := by
    intro d inside
    split at inside
    · exact (List.dropLast_sublist _).subset inside
    · exact inside
  simp only [PathBuilder.up] at member
  split at member
  · exact (mem_withSlash member).imp (shorter _ part c) id
  · exact .inl (shorter _ part c member)

private theorem add_chars {b : PathBuilder} (before : ∀ c ∈ b.path, PathChar kind c) {text : List Char}
    (good : ∀ c ∈ text, PathChar kind c) (slash : Bool) : ∀ c ∈ (b.add kind text slash).path, PathChar kind c := by
  have tail : ∀ c ∈ (if slash then ['/'] else []), PathChar kind c := by
    intro c member
    cases slash with
    | false => cases member
    | true =>
      obtain rfl := List.mem_singleton.mp member
      exact pathChar_slash kind
  have orSlash : ∀ c, c ∈ b.path ∨ c = '/' → PathChar kind c := by
    rintro c (inside | rfl)
    · exact before c inside
    · exact pathChar_slash kind
  intro c member
  simp only [PathBuilder.add] at member
  split at member
  · exact orSlash c (mem_up member)
  · split at member
    · exact orSlash c (mem_withSlash member)
    · split at member
      · simp only [List.mem_append, List.mem_cons] at member
        rcases member with (front | drive) | rfl | last
        · exact before c front
        · exact good c (List.mem_of_mem_take drive)
        · exact pathChar_colon kind
        · exact tail c last
      · simp only [List.mem_append] at member
        rcases member with (front | added) | last
        · exact before c front
        · exact good c added
        · exact tail c last

private theorem segmentPieces_chars (path : List Char) (found : SegmentText)
    (before : ∀ c ∈ found.text, PathChar kind c)
    {parts : List (List Char)} (inner : ∀ part ∈ parts, ∀ c ∈ part, isSlash kind c = false) :
    ∀ c ∈ (segmentPieces kind path found parts).text, PathChar kind c := by
  induction parts generalizing found with
  | nil => exact before
  | cons part rest ih =>
    have encoded : ∀ c ∈ percentEncode .path part, PathChar kind c :=
      fun c => pathChar_of_mem_percentEncode (inner part List.mem_cons_self)
    have later : ∀ other ∈ rest, ∀ c ∈ other, isSlash kind c = false :=
      fun other member => inner other (List.mem_cons_of_mem _ member)
    simp only [segmentPieces]
    generalize (decide (kind = .file) && !part.isEmpty && isPlainDrive _) = closes
    cases closes with
    | true =>
      refine ih _ (fun c member => ?_) later
      simp only [List.mem_append] at member
      rcases member with (front | closing) | added
      · exact before c front
      · split at closing
        · cases closing
        · obtain rfl := List.mem_singleton.mp closing
          exact pathChar_slash kind
      · exact encoded c added
    | false =>
      refine ih _ (fun c member => ?_) later
      exact (List.mem_append.mp member).elim (before c) (encoded c)

private theorem readPath_chars (fuel : Nat) {b : PathBuilder} (before : ∀ c ∈ b.path, PathChar kind c)
    (input : List Char) :
    ∀ c ∈ (readPath kind fuel b input).1.path, PathChar kind c := by
  induction fuel generalizing b input with
  | zero => exact before
  | succ fuel ih =>
    have inner : ∀ part ∈ pieces (input.takeWhile fun c => !(isSlash kind c || endsPath c)), ∀ c ∈ part,
        isSlash kind c = false := by
      intro part member c inside
      have taken := List.mem_flatten_of_mem member inside
      rw [flatten_pieces] at taken
      have stays := List.all_eq_true.mp List.all_takeWhile c (List.mem_filter.mp taken).1
      simp only [Bool.not_eq_true', Bool.or_eq_false_iff] at stays
      exact stays.1
    have found := segmentPieces_chars b.path ⟨[], false⟩ (fun c member => nomatch member) inner
    have start : ∀ closed : Bool, ∀ c ∈ (if closed then { b with path := b.path ++ ['/'] } else b).path,
        PathChar kind c := by
      intro closed c member
      cases closed with
      | false => exact before c member
      | true =>
        rcases List.mem_append.mp member with front | last
        · exact before c front
        · obtain rfl := List.mem_singleton.mp last
          exact pathChar_slash kind
    have added := fun slash closed => add_chars (start closed) found slash
    simp only [readPath]
    generalize input.dropWhile (fun c => !(isSlash kind c || endsPath c)) = after
    cases after with
    | nil => exact added _ _
    | cons next more =>
      cases slash : isSlash kind next with
      | true =>
        simp only [slash, ↓reduceIte]
        exact ih (added _ _) _
      | false =>
        simp only [slash, Bool.false_eq_true, ↓reduceIte]
        exact added _ _

theorem walkPath_file_chars {b : PathBuilder} (before : ∀ c ∈ b.path, PathChar .file c) (input : List Char) :
    ∃ rest, (walkPath .file b input).1.path = '/' :: rest ∧ ∀ c ∈ rest, PathChar .file c := by
  simp only [walkPath, ↓reduceIte]
  exact ⟨_, rfl, fun c member => readPath_chars _ before input c ((List.dropWhile_suffix _).subset member)⟩

end SpecServer.Uri
