/-! # The tokens of a YAML text -/

namespace ClassSchema.Yaml

/-- The text of a tag, its escapes replaced. Where they give bytes that encode no character, the
text has a gap. -/
abbrev TagText := List (Option Char)

inductive Token where
  | streamEnd
  | versionDirective (major minor : Nat)
  | tagDirective (handle : String) (replacement : TagText)
  | documentStart
  | documentEnd
  | blockSequenceStart
  | blockMappingStart
  | blockEnd
  | flowSequenceStart
  | flowSequenceEnd
  | flowMappingStart
  | flowMappingEnd
  | blockEntry
  | flowEntry
  | key
  | value
  | alias (name : String)
  | anchor (name : String)
  /-- A tag that is complete has the empty handle. -/
  | tag (handle : String) (rest : TagText)
  /-- A scalar is plain if it carries neither quotes nor a block mark. -/
  | scalar (isPlain : Bool) (text : String)
deriving DecidableEq, Repr, Inhabited

end ClassSchema.Yaml
