import FormRules.Text.Quoted

/-!
What can be wrong with the text of a pattern, and where.
-/

namespace FormRules.Pattern

inductive Cause where
  | danglingEscape
  | badEscape (escape : String)
  | incompleteEscape (escape : String)
  | octalTooLarge (escape : String)
  | openGroup
  | unknownGroup (index : Nat)
  | sameLookbehind
  | missing (what : String)
  | unterminatedName (terminator : String)
  | badGroupName (name : String)
  | unknownGroupName (name : String)
  | groupZero
  | redefinedName (name : String) (index old : Nat)
  | unterminatedClass
  | badRange (first last : String)
  | nothingToRepeat
  | multipleRepeat
  | reversedRepeat
  | unexpectedEnd
  | unknownExtension (text : String)
  | unterminatedComment
  | unterminatedGroup
  | tooManyBranches
  | lateFlags
  | localeFlag
  | mixedFlags
  | unknownFlag
  | typeFlagOff
  | flagOnAndOff
  | unbalanced
  | unboundedLookbehind
deriving DecidableEq

def Cause.message : Cause → String
  | .danglingEscape => "bad escape (end of pattern)"
  | .badEscape escape => s!"bad escape {escape}"
  | .incompleteEscape escape => s!"incomplete escape {escape}"
  | .octalTooLarge escape => s!"octal escape value {escape} outside of range 0-0o377"
  | .openGroup => "cannot refer to an open group"
  | .unknownGroup index => s!"invalid group reference {index}"
  | .sameLookbehind => "cannot refer to group defined in the same lookbehind subpattern"
  | .missing what => s!"missing {what}"
  | .unterminatedName terminator => s!"missing {terminator}, unterminated name"
  | .badGroupName name => s!"bad character in group name {Text.quoted name}"
  | .unknownGroupName name => s!"unknown group name {Text.quoted name}"
  | .groupZero => "bad group number"
  | .redefinedName name index old =>
    s!"redefinition of group name {Text.quoted name} as group {index}; was group {old}"
  | .unterminatedClass => "unterminated character set"
  | .badRange first last => s!"bad character range {first}-{last}"
  | .nothingToRepeat => "nothing to repeat"
  | .multipleRepeat => "multiple repeat"
  | .reversedRepeat => "min repeat greater than max repeat"
  | .unexpectedEnd => "unexpected end of pattern"
  | .unknownExtension text => s!"unknown extension {text}"
  | .unterminatedComment => "missing ), unterminated comment"
  | .unterminatedGroup => "missing ), unterminated subpattern"
  | .tooManyBranches => "conditional backref with more than two branches"
  | .lateFlags => "global flags not at the start of the expression"
  | .localeFlag => "bad inline flags: cannot use 'L' flag with a str pattern"
  | .mixedFlags => "bad inline flags: flags 'a', 'u' and 'L' are incompatible"
  | .unknownFlag => "unknown flag"
  | .typeFlagOff => "bad inline flags: cannot turn off flags 'a', 'u' and 'L'"
  | .flagOnAndOff => "bad inline flags: flag turned on and off"
  | .unbalanced => "unbalanced parenthesis"
  | .unboundedLookbehind => "look-behind requires fixed-width pattern"

structure Malformed where
  pattern : String
  cause : Cause
  position? : Option Nat

/-- The cause with its position, and with line and column where the pattern has several lines. -/
def Malformed.message (fault : Malformed) : String :=
  match fault.position? with
  | none => fault.cause.message
  | some position =>
    let chars := fault.pattern.toList
    let before := chars.take position
    let column := (before.reverse.takeWhile (· != '\n')).length + 1
    let line := before.count '\n' + 1
    let lines := s!" (line {line}, column {column})"
    s!"{fault.cause.message} at position {position}" ++ if chars.contains '\n' then lines else ""

end FormRules.Pattern
