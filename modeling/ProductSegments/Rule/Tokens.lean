import ProductSegments.Rule.Error
import ProductSegments.Text.Basic

/-! # Lines of rule text and their tokens

  Rule text holds one rule a line. Lines end at line feeds; blanks around a
  line, carriage returns among them, and lines of blanks only do not count.

  A line is split at its first run of operator characters, so an operator is
  always taken whole. What stands before the run is the field, what stands
  behind it the literal; both are trimmed and neither may be empty. The
  literal may hold `!` and none of the other operator characters: a second
  operator would make more than three parts.
-/

namespace ProductSegments

/-- The parts of a rule line. -/
structure Tokens where
  /-- The line as given. -/
  line : String
  /-- The field, trimmed. -/
  field : String
  /-- The run of operator characters. -/
  operator : String
  /-- The literal, trimmed. -/
  literal : String
deriving DecidableEq

namespace Rule

/-! ### Lines -/

/-- Puts a character in front of the first line. -/
def extendFirst (c : Char) : List (List Char) → List (List Char)
  | [] => [[c]]
  | l :: ls => (c :: l) :: ls

/-- The pieces of a text between its line feeds, one more than there are line
    feeds. -/
def splitLines (cs : List Char) : List (List Char) :=
  cs.foldr (fun c ls => if c = '\n' then [] :: ls else extendFirst c ls) [[]]

/-- The lines of a text, trimmed, without the empty ones. -/
def lines (text : String) : List String :=
  ((splitLines text.toList).map Text.trim).filter (· ≠ []) |>.map String.ofList

@[simp] theorem splitLines_nil : splitLines [] = [[]] := rfl

@[simp] theorem splitLines_cons_lf (cs : List Char) :
    splitLines ('\n' :: cs) = [] :: splitLines cs := rfl

theorem splitLines_cons {c : Char} (h : c ≠ '\n') (cs : List Char) :
    splitLines (c :: cs) = extendFirst c (splitLines cs) := by
  simp [splitLines, h]

/-! ### Tokens -/

/-- The characters that operators are made of. -/
def isOperatorChar (c : Char) : Bool := c == '=' || c == '!' || c == '<' || c == '>'

/-- The characters that a literal may not hold. -/
def isSplitChar (c : Char) : Bool := c == '=' || c == '<' || c == '>'

/-- The first part of a line, its first operator run and what follows. -/
def splitAtOperator (cs : List Char) : List Char × List Char × List Char :=
  let rest := cs.dropWhile (!isOperatorChar ·)
  (cs.takeWhile (!isOperatorChar ·), rest.takeWhile isOperatorChar, rest.dropWhile isOperatorChar)

/-- Splits a line into its tokens. The line is taken as it is, blanks around it
    and line feeds inside it included. -/
def tokenizeLine (line : String) : Except RuleError Tokens :=
  let (before, operator, after) := splitAtOperator line.toList
  let field := Text.trim before
  let literal := Text.trim after
  if field ≠ [] ∧ operator ≠ [] ∧ literal ≠ [] ∧ ¬ literal.any isSplitChar then
    .ok ⟨line, String.ofList field, String.ofList operator, String.ofList literal⟩
  else .error ⟨line, .malformed⟩

/-- The tokens of every line of a text, or the error of the first line that is
    malformed. -/
def tokenize (text : String) : Except RuleError (List Tokens) := (lines text).mapM tokenizeLine

end Rule

end ProductSegments
