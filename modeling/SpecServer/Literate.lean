import SpecServer.Json.Merge
import SpecServer.Json.Reader
import SpecServer.Json.Writer
import SpecServer.Text.Blank
import SpecServer.Text.Position
import SpecServer.Yaml.Document
set_option autoImplicit false

/-!
Literate documents: markdown with fenced blocks of YAML or JSON. The blocks are layered onto each other in
the order of the text. A text without any fence is one document as a whole.
-/

namespace SpecServer.Literate

def marker : String := "see https://aka.ms/autorest"

def isConfiguration (text : String) : Bool :=
  Text.occurs marker.toList text.toList

/-- A fenced block: what stands behind its opening fence, its content, and the number of its first line,
counted from zero. -/
structure Block where
  info : List Char
  content : List Char
  firstLine : Nat
deriving DecidableEq, Repr

namespace Block

def language (block : Block) : List Char :=
  ((Text.words block.info).head?).getD []

def isConditional (block : Block) : Bool :=
  1 < (Text.words block.info).length

/-- Whether the block always belongs to the document: YAML or JSON without a condition. -/
def applies (block : Block) : Bool :=
  !block.isConditional && (block.language == "yaml".toList || block.language == "json".toList)

end Block

/-- What stands behind a fence, if the line is one. -/
def fence? (line : List Char) : Option (List Char) :=
  Text.after? ['\x60', '\x60', '\x60'] (Text.trimStart line)

/-- A block whose lines are not all read: the lines so far, the last one first. -/
structure OpenBlock where
  info : List Char
  firstLine : Nat
  lines : List (List Char)

def OpenBlock.close (block : OpenBlock) : Block :=
  ⟨block.info, Text.joinWith ['\n'] block.lines.reverse, block.firstLine⟩

/-- The blocks of the lines from the given number on. A block that is not closed ends with the text. -/
def blocksFrom (open? : Option OpenBlock) (number : Nat) : List (List Char) → List Block
  | [] => (open?.map OpenBlock.close).toList
  | line :: rest =>
    match open?, fence? line with
    | none, none => blocksFrom none (number + 1) rest
    | none, some info => blocksFrom (some ⟨Text.trim info, number + 1, []⟩) (number + 1) rest
    | some block, some _ => block.close :: blocksFrom none (number + 1) rest
    | some block, none => blocksFrom (some { block with lines := line :: block.lines }) (number + 1) rest

def blocks (text : String) : List Block :=
  blocksFrom none 0 (Text.lines text.toList)

structure LiterateError where
  message : String
  line : Nat
  column : Nat
deriving DecidableEq, Repr

def lineBound : Nat := Nat.pow 2 32

/-- Reads a text as YAML, of which JSON is a part. Blank text is `null`. Lines are counted from `offset`. -/
def structured (text : List Char) (offset : Nat) : Except LiterateError Json :=
  if (Text.trim text).isEmpty then .ok .null
  else
    match Yaml.read text with
    | .ok value => .ok value
    | .error error =>
      .error ⟨error.message, (error.mark.line + 1 + offset) % lineBound, (error.mark.column + 1) % lineBound⟩

def layer (base : Json) : List Block → Except LiterateError Json
  | [] => .ok base
  | block :: rest =>
    if block.applies then
      match structured block.content block.firstLine with
      | .error error => .error error
      | .ok value => layer (base.overlay value) rest
    else layer base rest

def read (text : String) : Except LiterateError Json :=
  match blocks text with
  | [] => structured text.toList 0
  | found => layer (.object []) found

/-- The document as JSON text, if it is a mapping. -/
def toJson? (text : String) : Option String :=
  match read text with
  | .ok (.object fields) => some (Json.renderPretty (.object fields))
  | _ => none

def namesFormat (document : Json) : Bool :=
  (document.field? "swagger").isSome || (document.field? "openapi").isSome

/-- Whether a text is a specification, as JSON or else as a literate document. -/
def isSpecification (text : String) : Bool :=
  match Json.read text with
  | .ok document => namesFormat document
  | .error _ =>
    match read text with
    | .ok document => namesFormat document
    | .error _ => false

end SpecServer.Literate
