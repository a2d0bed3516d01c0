import TreeCheck.Yaml.Source

/-!
The tokens of a document, and what can be wrong with one. Block structure is explicit: collections
that are written by indentation have start and end tokens like those in brackets.
-/

namespace TreeCheck.Yaml

inductive Style where
  | plain
  | single
  | double
  | literal
  | folded
  deriving DecidableEq, Inhabited

def Style.isQuoted : Style → Bool
  | .plain => false
  | _ => true

inductive TokenKind where
  | streamStart
  | streamEnd
  | version (major minor : Nat)
  | tagDirective (handle lead : Text)
  | documentStart
  | documentEnd
  | blockSequenceStart
  | blockMappingStart
  | blockEnd
  | flowSequenceStart
  | flowSequenceEnd
  | flowMappingStart
  | flowMappingEnd
  | blockEntry
  | flowEntry
  | key
  | value
  | alias (name : Text)
  | anchor (name : Text)
  | tag (handle suffix : Text)
  | scalar (value : Text) (style : Style)
  deriving DecidableEq, Inhabited

/-- A token with the positions where it starts and where it ends. -/
structure Token where
  kind : TokenKind
  start : Mark
  stop : Mark
  /-- Where an absent value behind a colon between brackets is placed. -/
  valueAt : Mark
  deriving Inhabited

def Token.point (kind : TokenKind) (m : Mark) : Token :=
  ⟨kind, m, m, m⟩

def Token.span (kind : TokenKind) (start stop : Mark) : Token :=
  ⟨kind, start, stop, start⟩

inductive Problem where
  | unreadable
  | missingColon
  | misplacedEntry
  | misplacedKey
  | misplacedValue
  | tooDeep
  | strangeCharacter
  | badAnchor
  | badTag
  | badDirective
  | badEscape
  | badBlockHeader
  | misplacedTab
  | indicatorInQuotes
  | openQuotes
  | otherVersion
  | repeatedDirective
  | undefinedHandle
  | missingContent
  | unexpectedToken
  | unknownAnchor (name : Text)
  deriving DecidableEq

def Problem.message : Problem → Text
  | .unreadable => text "control characters are not allowed"
  | .missingColon => text "could not find expected ':'"
  | .misplacedEntry => text "block sequence entries are not allowed in this context"
  | .misplacedKey => text "mapping keys are not allowed in this context"
  | .misplacedValue => text "mapping values are not allowed in this context"
  | .tooDeep => text "exceeded max depth"
  | .strangeCharacter => text "found character that cannot start any token"
  | .badAnchor => text "did not find expected alphabetic or numeric character"
  | .badTag => text "did not find expected tag"
  | .badDirective => text "found unknown directive"
  | .badEscape => text "found unknown escape character"
  | .badBlockHeader => text "did not find expected comment or line break"
  | .misplacedTab => text "found a tab character that violates indentation"
  | .indicatorInQuotes => text "found unexpected document indicator"
  | .openQuotes => text "found unexpected end of stream"
  | .otherVersion => text "found incompatible YAML document"
  | .repeatedDirective => text "found duplicate directive"
  | .undefinedHandle => text "found undefined tag handle"
  | .missingContent => text "did not find expected node content"
  | .unexpectedToken => text "did not find expected token"
  | .unknownAnchor name => text "unknown anchor '" ++ name ++ text "' referenced"

/-- A problem and the line it is on, from 0. -/
structure Fault where
  line : Nat
  problem : Problem

def Fault.message (f : Fault) : Text :=
  text "yaml: line " ++ Text.ofNat (f.line + 1) ++ text ": " ++ f.problem.message

end TreeCheck.Yaml
