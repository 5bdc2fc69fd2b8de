import SpecServer.Literate
import SpecServer.Proofs.Text.Places
set_option autoImplicit false

/-!
The blocks of a literate document and its lines. The fences cut the lines into prose and blocks, so that every fence opens
or ends one block and the lines of a block are those up to the next fence. Line numbers of a block are thus line numbers
of the document behind its opening fence, also those of the first fault that is found.
-/

namespace SpecServer.Literate

variable {number : Nat} {line opening info : List Char} {all lines prose body rest : List (List Char)} {block : Block}
  {found : List Block}

/-! ## Fences -/

/-- Three backticks. -/
def ticks : List Char := ['\x60', '\x60', '\x60']

/-- Whether a line starts with three backticks behind its blanks. -/
def IsFence (line : List Char) : Prop :=
  ticks <+: Text.trimStart line

private theorem fence?_eq_some_iff : fence? line = some info ↔ Text.trimStart line = ticks ++ info :=
  Text.after?_eq_some_iff ticks (Text.trimStart line) info

private theorem isFence_iff : IsFence line ↔ ∃ info, fence? line = some info := by
  simp only [fence?_eq_some_iff]
  constructor
  · rintro ⟨info, same⟩
    exact ⟨info, same.symm⟩
  · rintro ⟨info, same⟩
    exact ⟨info, same.symm⟩

private theorem fence?_eq_none_iff : fence? line = none ↔ ¬IsFence line := by
  rw [isFence_iff, ← Option.isSome_iff_exists, Bool.not_eq_true, Option.isSome_eq_false_iff, Option.isNone_iff_eq_none]

instance : DecidablePred IsFence := fun line =>
  decidable_of_iff ((fence? line).isSome = true) (by rw [isFence_iff, Option.isSome_iff_exists])

/-! ## Runs of lines without a fence -/

/-- Whether no line of some lines is a fence. -/
def Plain (lines : List (List Char)) : Prop :=
  ∀ line ∈ lines, ¬IsFence line

private theorem blocksFrom_prose (plain : Plain prose) (number : Nat) (rest : List (List Char)) :
    blocksFrom none number (prose ++ rest) = blocksFrom none (number + prose.length) rest := by
  induction prose generalizing number with
  | nil => rfl
  | cons line prose ih =>
    obtain ⟨first, later⟩ := List.forall_mem_cons.mp plain
    simp only [List.cons_append, blocksFrom, fence?_eq_none_iff.mpr first]
    rw [ih later, List.length_cons, Nat.add_assoc, Nat.add_comm 1]

private theorem blocksFrom_body (plain : Plain body) (open' : OpenBlock) (number : Nat) (rest : List (List Char)) :
    blocksFrom (some open') number (body ++ rest) =
      blocksFrom (some { open' with lines := body.reverse ++ open'.lines }) (number + body.length) rest := by
  induction body generalizing number open' with
  | nil => rfl
  | cons line body ih =>
    obtain ⟨first, later⟩ := List.forall_mem_cons.mp plain
    simp only [List.cons_append, blocksFrom, fence?_eq_none_iff.mpr first]
    rw [ih later, List.length_cons, Nat.add_assoc, Nat.add_comm 1, List.reverse_cons, List.append_assoc]
    rfl

private theorem plain_or_fence (lines : List (List Char)) :
    Plain lines ∨ ∃ before fence after, lines = before ++ fence :: after ∧ Plain before ∧ IsFence fence := by
  induction lines with
  | nil => exact .inl (List.forall_mem_nil _)
  | cons line lines ih =>
    -- the first fence is this line or the first one behind it
    by_cases fence : IsFence line
    · exact .inr ⟨[], line, lines, rfl, List.forall_mem_nil _, fence⟩
    · obtain plain | ⟨before, other, after, rfl, plain, is⟩ := ih
      · exact .inl (List.forall_mem_cons.mpr ⟨fence, plain⟩)
      · exact .inr ⟨line :: before, other, after, rfl, List.forall_mem_cons.mpr ⟨fence, plain⟩, is⟩

/-! ## The cut of a document into prose and blocks -/

def blockOf (info : List Char) (firstLine : Nat) (body : List (List Char)) : Block :=
  ⟨Text.trim info, Text.joinWith ['\n'] body, firstLine⟩

/-- The lines of a document from a number on, and the blocks among them: nothing but prose, prose and a block up to the
end, or prose, a block with its two fences and what follows. -/
inductive Layout : Nat → List (List Char) → List Block → Prop
  | prose (number : Nat) (lines : List (List Char)) (plain : Plain lines) : Layout number lines []
  | unclosed (number : Nat) (prose : List (List Char)) (opening info : List Char) (body : List (List Char))
      (plain : Plain prose) (fence : fence? opening = some info) (inside : Plain body) :
      Layout number (prose ++ opening :: body) [blockOf info (number + prose.length + 1) body]
  | closed (number : Nat) (prose : List (List Char)) (opening info : List Char) (body : List (List Char))
      (closing : List Char) (rest : List (List Char)) (found : List Block) (plain : Plain prose)
      (fence : fence? opening = some info) (inside : Plain body) (ends : IsFence closing)
      (further : Layout (number + prose.length + 1 + body.length + 1) rest found) :
      Layout number (prose ++ opening :: (body ++ closing :: rest))
        (blockOf info (number + prose.length + 1) body :: found)

private theorem layout_blocksFrom (number : Nat) (lines : List (List Char)) :
    Layout number lines (blocksFrom none number lines) := by
  induction size : lines.length using Nat.strongRecOn generalizing number lines with
  | ind size ih =>
    subst size
    obtain plain | ⟨prose, opening, rest, rfl, plain, fence⟩ := plain_or_fence lines
    · have none := blocksFrom_prose plain number []
      rw [List.append_nil] at none
      rw [none]
      exact .prose number lines plain
    · obtain ⟨info, begins⟩ := isFence_iff.mp fence
      simp only [blocksFrom_prose plain, blocksFrom, begins]
      obtain inside | ⟨body, closing, rest, rfl, inside, ends⟩ := plain_or_fence rest
      · have all := blocksFrom_body inside ⟨Text.trim info, number + prose.length + 1, []⟩ (number + prose.length + 1) []
        rw [List.append_nil] at all
        simp only [all, blocksFrom, OpenBlock.close, Option.map_some, Option.toList_some, List.append_nil,
          List.reverse_reverse]
        exact .unclosed number prose opening info rest plain begins inside
      · obtain ⟨other, stops⟩ := isFence_iff.mp ends
        simp only [blocksFrom_body inside, blocksFrom, stops, OpenBlock.close, List.append_nil, List.reverse_reverse]
        refine .closed number prose opening info body closing rest _ plain begins inside ends (ih _ ?_ _ _ rfl)
        simp only [List.length_append, List.length_cons]
        omega

/-! ## Line numbers -/

/-- The number of the first fence from a line on, or the number of all lines if there is none. -/
def nextFence (lines : List (List Char)) (start : Nat) : Nat :=
  start + ((lines.drop start).takeWhile fun line => !decide (IsFence line)).length

/-- The number of the line behind a block: its closing fence, or the end of the document. -/
def Block.stop (block : Block) (lines : List (List Char)) : Nat :=
  nextFence lines block.firstLine

/-- Whether a line is the opening or the closing fence of a block. -/
def Block.BoundedBy (block : Block) (lines : List (List Char)) (number : Nat) : Prop :=
  number + 1 = block.firstLine ∨ number = block.stop lines

/-- How a block lies in the lines of its document: behind a fence that gives the info, up to the next fence or the end,
with the lines between as its content. -/
structure Block.Covers (block : Block) (lines : List (List Char)) : Prop where
  opened : ∃ number line info, block.firstLine = number + 1 ∧ lines[number]? = some line ∧
    Text.trimStart line = ticks ++ info ∧ block.info = Text.trim info
  within : block.firstLine ≤ block.stop lines ∧ block.stop lines ≤ lines.length
  plain : ∀ number line, block.firstLine ≤ number → number < block.stop lines → lines[number]? = some line → ¬IsFence line
  ended : ∀ line, lines[block.stop lines]? = some line → IsFence line
  content : block.content =
    Text.joinWith ['\n'] ((lines.drop block.firstLine).take (block.stop lines - block.firstLine))

/-- A line somewhere in a document has its number and leaves what follows. -/
theorem drop_behind (same : all.drop number = prose ++ line :: rest) :
    all[number + prose.length]? = some line ∧ all.drop (number + prose.length + 1) = rest := by
  have split : prose ++ line :: rest = (prose ++ [line]) ++ rest := List.append_cons prose line rest
  constructor
  · rw [← List.getElem?_drop, same, List.getElem?_append_right (Nat.le_refl _), Nat.sub_self, List.getElem?_cons_zero]
  · rw [Nat.add_assoc, ← List.drop_drop, same, split]
    exact List.drop_left' List.length_append

private theorem nextFence_of_drop (same : all.drop number = body ++ rest) (inside : Plain body)
    (ends : ∀ line ∈ rest.head?, IsFence line) : nextFence all number = number + body.length := by
  have none : rest.takeWhile (fun line => !decide (IsFence line)) = [] := by
    cases rest with
    | nil => rfl
    | cons line rest =>
      have fence := ends line rfl
      simp [fence]
  rw [nextFence, same, List.takeWhile_append_of_pos, none, List.append_nil]
  intro line member
  simp [inside line member]

private theorem Plain.getElem? {i : Nat} (plain : Plain lines) (found : lines[i]? = some line) : ¬IsFence line :=
  plain line (List.mem_of_getElem? found)

private theorem covers_blockOf (same : all.drop number = prose ++ opening :: (body ++ rest))
    (fence : fence? opening = some info) (inside : Plain body) (ends : ∀ line ∈ rest.head?, IsFence line) :
    (blockOf info (number + prose.length + 1) body).stop all = number + prose.length + 1 + body.length ∧
      (blockOf info (number + prose.length + 1) body).Covers all := by
  obtain ⟨opens, behind⟩ := drop_behind same
  generalize number + prose.length = place at *
  have first : (blockOf info (place + 1) body).firstLine = place + 1 := rfl
  have stop : (blockOf info (place + 1) body).stop all = place + 1 + body.length :=
    nextFence_of_drop behind inside ends
  have length : all.length = place + 1 + (body.length + rest.length) := by
    have taken := congrArg List.length behind
    have inner : place < all.length := (List.getElem?_eq_some_iff.mp opens).1
    rw [List.length_drop, List.length_append] at taken
    omega
  refine ⟨stop, ?_, ?_, ?_, ?_, ?_⟩
  · exact ⟨place, opening, info, rfl, opens, fence?_eq_some_iff.mp fence, rfl⟩
  · rw [stop, first, length]
    exact ⟨Nat.le_add_right _ _, by omega⟩
  · intro other line least less found
    rw [stop] at less
    obtain ⟨k, rfl⟩ := Nat.exists_eq_add_of_le least
    rw [first] at less found
    rw [← List.getElem?_drop, behind, List.getElem?_append_left (Nat.lt_of_add_lt_add_left less)] at found
    exact inside.getElem? found
  · intro line found
    rw [stop, ← List.getElem?_drop, behind, List.getElem?_append_right (Nat.le_refl _), Nat.sub_self] at found
    apply ends
    rw [List.head?_eq_getElem?]
    exact found
  · rw [stop, first, Nat.add_sub_cancel_left, behind, List.take_left]
    rfl

private theorem covers_closed {closing : List Char}
    (same : all.drop number = prose ++ opening :: (body ++ closing :: rest))
    (fence : fence? opening = some info) (inside : Plain body) (ends : IsFence closing) :
    (blockOf info (number + prose.length + 1) body).stop all = number + prose.length + 1 + body.length ∧
      (blockOf info (number + prose.length + 1) body).Covers all ∧
      all.drop (number + prose.length + 1 + body.length + 1) = rest := by
  have next : ∀ line ∈ (closing :: rest).head?, IsFence line := by
    rintro line ⟨⟩
    exact ends
  obtain ⟨stop, covers⟩ := covers_blockOf same fence inside next
  obtain ⟨-, behind⟩ := drop_behind same
  obtain ⟨-, after⟩ := drop_behind behind
  exact ⟨stop, covers, after⟩

private theorem Block.Covers.numbered (covers : block.Covers lines) (unbroken : ∀ line ∈ lines, '\n' ∉ line) {k : Nat}
    (less : block.firstLine + k < block.stop lines) :
    (Text.splitAt '\n' block.content)[k]? = lines[block.firstLine + k]? := by
  generalize taken : (lines.drop block.firstLine).take (block.stop lines - block.firstLine) = body
  have length : body.length = block.stop lines - block.firstLine := by
    have within := covers.within
    rw [← taken, List.length_take, List.length_drop]
    omega
  obtain ⟨first, more, rfl⟩ := List.exists_cons_of_length_pos (l := body) (by omega)
  have free : ∀ line ∈ first :: more, '\n' ∉ line := by
    intro line member
    rw [← taken] at member
    exact unbroken line (List.mem_of_mem_drop (List.mem_of_mem_take member))
  have cut : Text.splitAt '\n' block.content = first :: more := by
    rw [covers.content, taken]
    exact Text.splitAt_joinWith first more free
  rw [cut, ← taken, List.getElem?_take_of_lt (by omega), List.getElem?_drop]

/-! ## What a cut tells about the lines -/

private theorem Layout.covers (layout : Layout number lines found) (same : all.drop number = lines) :
    ∀ block ∈ found, number < block.firstLine ∧ block.Covers all := by
  induction layout with
  | prose number lines plain => exact List.forall_mem_nil _
  | unclosed number prose opening info body plain fence inside =>
    rw [← List.append_nil body] at same
    obtain ⟨-, covers⟩ := covers_blockOf same fence inside nofun
    refine List.forall_mem_singleton.mpr ⟨?_, covers⟩
    exact Nat.lt_succ_of_le (Nat.le_add_right _ _)
  | closed number prose opening info body closing rest found plain fence inside ends further ih =>
    obtain ⟨-, covers, after⟩ := covers_closed same fence inside ends
    refine List.forall_mem_cons.mpr ⟨⟨?_, covers⟩, ?_⟩
    · exact Nat.lt_succ_of_le (Nat.le_add_right _ _)
    · intro block member
      obtain ⟨above, covers⟩ := ih after block member
      exact ⟨by omega, covers⟩

private theorem Layout.ascending (layout : Layout number lines found) (same : all.drop number = lines) :
    found.Pairwise fun former later => former.stop all + 1 < later.firstLine := by
  induction layout with
  | prose => exact .nil
  | unclosed => exact List.pairwise_singleton _ _
  | closed number prose opening info body closing rest found plain fence inside ends further ih =>
    obtain ⟨stop, -, after⟩ := covers_closed same fence inside ends
    refine List.pairwise_cons.mpr ⟨?_, ih after⟩
    intro block member
    obtain ⟨above, -⟩ := further.covers after block member
    rw [stop]
    exact above

private theorem fence_cases {fence : List Char} {i : Nat} (plain : Plain prose)
    (found : (prose ++ fence :: rest)[i]? = some line)
    (is : IsFence line) : i = prose.length ∨ ∃ j, i = prose.length + 1 + j ∧ rest[j]? = some line := by
  obtain less | rfl | greater := Nat.lt_trichotomy i prose.length
  · rw [List.getElem?_append_left less] at found
    exact absurd is (plain.getElem? found)
  · exact .inl rfl
  · obtain ⟨j, rfl⟩ := Nat.exists_eq_add_of_lt greater
    refine .inr ⟨j, Nat.add_right_comm _ _ _, ?_⟩
    have later : (prose ++ fence :: rest)[prose.length + j + 1]? = rest[j]? := by
      rw [Nat.add_assoc, List.getElem?_append_right (Nat.le_add_right _ _), Nat.add_sub_cancel_left,
        List.getElem?_cons_succ]
    exact later.symm.trans found

private theorem Layout.fences (layout : Layout number lines found) (same : all.drop number = lines) {i : Nat}
    (at' : lines[i]? = some line) (is : IsFence line) : ∃ block ∈ found, block.BoundedBy all (number + i) := by
  induction layout generalizing i with
  | prose number lines plain => exact absurd is (plain.getElem? at')
  | unclosed number prose opening info body plain fence inside =>
    obtain rfl | ⟨j, rfl, within⟩ := fence_cases plain at' is
    · exact ⟨_, List.mem_singleton_self _, .inl rfl⟩
    · exact absurd is (inside.getElem? within)
  | closed number prose opening info body closing rest found plain fence inside ends further ih =>
    obtain ⟨stop, -, after⟩ := covers_closed same fence inside ends
    obtain rfl | ⟨j, rfl, below⟩ := fence_cases plain at' is
    · exact ⟨_, List.mem_cons_self, .inl rfl⟩
    · obtain rfl | ⟨k, rfl, later⟩ := fence_cases inside below is
      · refine ⟨_, List.mem_cons_self, .inr ?_⟩
        rw [stop]
        omega
      · obtain ⟨block, member, place⟩ := ih after later
        refine ⟨block, List.mem_cons_of_mem _ member, ?_⟩
        rw [show number + (prose.length + 1 + (body.length + 1 + k)) =
          number + prose.length + 1 + body.length + 1 + k by omega]
        exact place

private theorem place_unique (covers : ∀ block ∈ found, block.Covers lines)
    (ascending : found.Pairwise fun former later => former.stop lines + 1 < later.firstLine) {i j : Nat}
    {left right : Block} (first : found[i]? = some left) (second : found[j]? = some right)
    (bounds : left.BoundedBy lines number) (bounds' : right.BoundedBy lines number) : i = j := by
  -- the earlier of two blocks ends before the later one opens
  have apart : ∀ {i j : Nat} {former later : Block}, found[i]? = some former → found[j]? = some later → i < j →
      former.BoundedBy lines number → ¬later.BoundedBy lines number := by
    intro i j former later at' at'' less low high
    obtain ⟨inner, rfl⟩ := List.getElem?_eq_some_iff.mp at'
    obtain ⟨inner', rfl⟩ := List.getElem?_eq_some_iff.mp at''
    have between := List.pairwise_iff_getElem.mp ascending i j inner inner' less
    have within := (covers _ (List.getElem_mem inner)).within
    have within' := (covers _ (List.getElem_mem inner')).within
    obtain low | low := low <;> obtain high | high := high <;> omega
  obtain less | same | greater := Nat.lt_trichotomy i j
  · exact absurd bounds' (apart first second less bounds)
  · exact same
  · exact absurd bounds (apart second first greater bounds')

/-! ## Faults in blocks -/

/-- The fault of a text so many lines further down. Line numbers have 32 bits. -/
def LiterateError.down (fault : LiterateError) (offset : Nat) : LiterateError :=
  { fault with line := (offset + fault.line) % lineBound }

private theorem LiterateError.eq_down_iff {error fault : LiterateError} {offset : Nat} : error = fault.down offset ↔
    error.message = fault.message ∧ error.line = (offset + fault.line) % lineBound ∧ error.column = fault.column := by
  cases error
  exact Iff.of_eq (LiterateError.mk.injEq _ _ _ _ _ _)

private theorem structured_eq (text : List Char) (offset : Nat) :
    structured text offset = (structured text 0).mapError (·.down offset) := by
  simp only [structured]
  split
  · rfl
  · cases Yaml.read text with
    | ok value => rfl
    | error error =>
      simp only [Except.mapError, LiterateError.down, Nat.add_mod_mod, Nat.add_zero]
      rw [Nat.add_comm offset]

/-- The fault of the first block of a document that has one, with the block. -/
structure FirstFault (found : List Block) (block : Block) (fault : LiterateError) : Prop where
  applies : block.applies = true
  fails : structured block.content 0 = .error fault
  first : ∃ before after, found = before ++ block :: after ∧
    ∀ earlier ∈ before, earlier.applies = true → (structured earlier.content 0).isOk = true

private theorem firstFault_cons_of_passed {first : Block} {fault : LiterateError}
    (passed : first.applies = true → (structured first.content 0).isOk = true) :
    FirstFault (first :: found) block fault ↔ FirstFault found block fault := by
  constructor
  · rintro ⟨applies, fails, before, after, same, sound⟩
    refine ⟨applies, fails, ?_⟩
    cases before with
    | nil =>
      cases same
      have succeeds := passed applies
      rw [fails] at succeeds
      cases succeeds
    | cons other before =>
      cases same
      exact ⟨before, after, rfl, (List.forall_mem_cons.mp sound).2⟩
  · rintro ⟨applies, fails, before, after, rfl, sound⟩
    exact ⟨applies, fails, first :: before, after, rfl, List.forall_mem_cons.mpr ⟨passed, sound⟩⟩

private theorem firstFault_cons_of_failed {first : Block} {fault other : LiterateError} (applies : first.applies = true)
    (fails : structured first.content 0 = .error fault) :
    FirstFault (first :: found) block other ↔ block = first ∧ other = fault := by
  constructor
  · rintro ⟨-, fails', before, after, same, sound⟩
    cases before with
    | nil =>
      cases same
      exact ⟨rfl, Except.error.inj (fails'.symm.trans fails)⟩
    | cons earlier before =>
      cases same
      have succeeds := sound first List.mem_cons_self applies
      rw [fails] at succeeds
      cases succeeds
  · rintro ⟨rfl, rfl⟩
    exact ⟨applies, fails, [], found, rfl, List.forall_mem_nil _⟩

private theorem layer_eq_error_iff (base : Json) (error : LiterateError) :
    layer base found = .error error ↔
      ∃ block fault, FirstFault found block fault ∧ error = fault.down block.firstLine := by
  induction found generalizing base with
  | nil =>
    apply iff_of_false
    · nofun
    · rintro ⟨block, fault, ⟨-, -, before, after, same, -⟩, -⟩
      cases before <;> cases same
  | cons first found ih =>
    rw [layer]
    split
    next applies =>
      rw [structured_eq]
      cases parsed : structured first.content 0 with
      | ok value =>
        have passed : first.applies = true → (structured first.content 0).isOk = true := by
          intro _
          rw [parsed]
          rfl
        simp only [firstFault_cons_of_passed passed]
        exact ih (base.overlay value)
      | error fault =>
        simp only [Except.mapError, Except.error.injEq, firstFault_cons_of_failed applies parsed]
        constructor
        · rintro rfl
          exact ⟨first, fault, ⟨rfl, rfl⟩, rfl⟩
        · rintro ⟨block, other, ⟨rfl, rfl⟩, rfl⟩
          rfl
    next skipped =>
      have passed : first.applies = true → (structured first.content 0).isOk = true :=
        fun applies => absurd applies skipped
      simp only [firstFault_cons_of_passed passed]
      exact ih base

/-- The blocks of a document follow each other and cover its lines from fence to fence, so that every fence bounds just
one of them and their lines have their numbers behind the opening fence. If a document is refused, the fault is that of
its first block with a fault, so many lines further down. -/
theorem blocks_partition (text : String) :
    let lines := Text.lines text.toList
    (∀ block ∈ blocks text, block.Covers lines) ∧
      (blocks text).Pairwise (fun former later => former.stop lines + 1 < later.firstLine) ∧
      (∀ number line, lines[number]? = some line → IsFence line →
        ∃! place : Nat, ∃ block : Block, (blocks text)[place]? = some block ∧ block.BoundedBy lines number) ∧
      (∀ block ∈ blocks text, ∀ k, block.firstLine + k < block.stop lines →
        (Text.splitAt '\n' block.content)[k]? = lines[block.firstLine + k]?) ∧
      (blocks text ≠ [] → ∀ error, read text = .error error ↔
        ∃ block fault, FirstFault (blocks text) block fault ∧ error.message = fault.message ∧
          error.line = (block.firstLine + fault.line) % lineBound ∧ error.column = fault.column) := by
  intro lines
  have layout : Layout 0 lines (blocks text) := layout_blocksFrom 0 lines
  have same : lines.drop 0 = lines := rfl
  have covers : ∀ block ∈ blocks text, block.Covers lines := fun block member => (layout.covers same block member).2
  have ascending := layout.ascending same
  refine ⟨covers, ascending, ?_, ?_, ?_⟩
  · intro number line at' is
    obtain ⟨block, member, bounds⟩ := layout.fences same at' is
    rw [Nat.zero_add] at bounds
    obtain ⟨place, found⟩ := List.getElem?_of_mem member
    refine ⟨place, ⟨block, found, bounds⟩, ?_⟩
    rintro other ⟨block', found', bounds'⟩
    exact place_unique covers ascending found' found bounds' bounds
  · intro block member k less
    exact (covers block member).numbered (fun line => Text.newline_not_mem_of_mem_lines) less
  · intro inhabited error
    have reads : read text = layer (.object []) (blocks text) := by
      rw [read]
      split
      next none => exact absurd none inhabited
      next => rfl
    rw [reads, layer_eq_error_iff]
    simp only [LiterateError.eq_down_iff]

end SpecServer.Literate
