import SpecServer.Yaml.Mark
set_option autoImplicit false

/-!
What can be wrong with YAML text: a problem at a place, and what was being read when it came up.
-/

namespace SpecServer.Yaml

inductive Problem where
  | controlCharacter
  | blockEntryNotAllowed
  | keyNotAllowed
  | valueNotAllowed
  | tokenStart
  | colonMissing
  | directiveName
  | directiveNameEnd
  | unknownDirective
  | lineNotEnded
  | versionNumberMissing
  | versionNumberLong
  | versionPointMissing
  | spaceMissing
  | spaceOrBreakMissing
  | anchorName
  | tagExclamation
  | tagUriMissing
  | tagClosing
  | uriOctet
  | uriLeadingOctet
  | uriTrailingOctet
  | indentationZero
  | tabInIndentation
  | tabBelowIndentation
  | documentMarkerInQuotes
  | quoteNotClosed
  | unknownEscape
  | hexDigit
  | escapeCode
  | colonInFlow
  | documentStartMissing
  | nodeMissing
  | undefinedTagHandle
  | sequenceEntryMissing
  | mappingKeyMissing
  | flowSequenceEnd
  | flowMappingEnd
  | duplicateVersion
  | incompatibleVersion
  | duplicateTagHandle
deriving DecidableEq, Repr

def Problem.message : Problem → String
  | controlCharacter => "control characters are not allowed"
  | blockEntryNotAllowed => "block sequence entries are not allowed in this context"
  | keyNotAllowed => "mapping keys are not allowed in this context"
  | valueNotAllowed => "mapping values are not allowed in this context"
  | tokenStart => "found character that cannot start any token"
  | colonMissing => "could not find expected ':'"
  | directiveName => "could not find expected directive name"
  | directiveNameEnd => "found unexpected non-alphabetical character"
  | unknownDirective => "found unknown directive name"
  | lineNotEnded => "did not find expected comment or line break"
  | versionNumberMissing => "did not find expected version number"
  | versionNumberLong => "found extremely long version number"
  | versionPointMissing => "did not find expected digit or '.' character"
  | spaceMissing => "did not find expected whitespace"
  | spaceOrBreakMissing => "did not find expected whitespace or line break"
  | anchorName => "did not find expected alphabetic or numeric character"
  | tagExclamation => "did not find expected '!'"
  | tagUriMissing => "did not find expected tag URI"
  | tagClosing => "did not find the expected '>'"
  | uriOctet => "did not find URI escaped octet"
  | uriLeadingOctet => "found an incorrect leading UTF-8 octet"
  | uriTrailingOctet => "found an incorrect trailing UTF-8 octet"
  | indentationZero => "found an indentation indicator equal to 0"
  | tabInIndentation => "found a tab character where an indentation space is expected"
  | tabBelowIndentation => "found a tab character that violates indentation"
  | documentMarkerInQuotes => "found unexpected document indicator"
  | quoteNotClosed => "found unexpected end of stream"
  | unknownEscape => "found unknown escape character"
  | hexDigit => "did not find expected hexdecimal number"
  | escapeCode => "found invalid Unicode character escape code"
  | colonInFlow => "found unexpected ':'"
  | documentStartMissing => "did not find expected <document start>"
  | nodeMissing => "did not find expected node content"
  | undefinedTagHandle => "found undefined tag handle"
  | sequenceEntryMissing => "did not find expected '-' indicator"
  | mappingKeyMissing => "did not find expected key"
  | flowSequenceEnd => "did not find expected ',' or ']'"
  | flowMappingEnd => "did not find expected ',' or '\x7d'"
  | duplicateVersion => "found duplicate %YAML directive"
  | incompatibleVersion => "found incompatible YAML document"
  | duplicateTagHandle => "found duplicate %TAG directive"

inductive Activity where
  | nextToken
  | simpleKey
  | directive
  | versionDirective
  | tagDirective
  | tagDirectiveHandle
  | tagDirectiveValue
  | tagDirectiveUri
  | anchor
  | alias
  | tag
  | tagUri
  | blockScalar
  | quotedScalar
  | quotedEscape
  | plainScalar
  | node
  | blockNode
  | flowNode
  | blockCollection
  | blockMapping
  | flowSequence
  | flowMapping
deriving DecidableEq, Repr

def Activity.message : Activity → String
  | .nextToken => "while scanning for the next token"
  | .simpleKey => "while scanning a simple key"
  | .directive => "while scanning a directive"
  | .versionDirective => "while scanning a %YAML directive"
  | .tagDirective => "while scanning a %TAG directive"
  | .tagDirectiveHandle => "while scanning a tag directive"
  | .tagDirectiveValue => "while parsing a tag directive"
  | .tagDirectiveUri => "while parsing a %TAG directive"
  | .anchor => "while scanning an anchor"
  | .alias => "while scanning an alias"
  | .tag => "while scanning a tag"
  | .tagUri => "while parsing a tag"
  | .blockScalar => "while scanning a block scalar"
  | .quotedScalar => "while scanning a quoted scalar"
  | .quotedEscape => "while parsing a quoted scalar"
  | .plainScalar => "while scanning a plain scalar"
  | .node => "while parsing a node"
  | .blockNode => "while parsing a block node"
  | .flowNode => "while parsing a flow node"
  | .blockCollection => "while parsing a block collection"
  | .blockMapping => "while parsing a block mapping"
  | .flowSequence => "while parsing a flow sequence"
  | .flowMapping => "while parsing a flow mapping"

/-- A problem, its place, and what was being read since which place. A forbidden character is placed by the
bytes before it instead. -/
structure Fault where
  problem : Problem
  place : Mark
  since : Option (Activity × Mark)
  bytes : Nat
deriving DecidableEq, Repr

def Fault.while (problem : Problem) (place : Mark) (activity : Activity) (since : Mark) : Fault :=
  ⟨problem, place, some (activity, since), 0⟩

def Fault.alone (problem : Problem) (place : Mark) : Fault :=
  ⟨problem, place, none, 0⟩

/-- The text of a fault. A place at the very start of the text is left out. -/
def Fault.message (fault : Fault) : String :=
  let place :=
    if !fault.place.isOrigin then " at " ++ fault.place.text
    else if fault.bytes ≠ 0 then " at position " ++ toString fault.bytes
    else ""
  let context :=
    match fault.since with
    | none => ""
    | some (activity, since) =>
      let elsewhere := since.line ≠ fault.place.line ∨ since.column ≠ fault.place.column
      ", " ++ activity.message ++ (if !since.isOrigin ∧ elsewhere then " at " ++ since.text else "")
  fault.problem.message ++ place ++ context

end SpecServer.Yaml
