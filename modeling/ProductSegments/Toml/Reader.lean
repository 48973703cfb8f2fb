import ProductSegments.Toml.Scalar

/-! # Reading TOML documents

  A document is a row of lines: headers, key-value pairs, blanks and comments.
  Inside brackets and braces line ends, comments and a trailing comma are
  allowed, also around the equals sign of a pair, but not between the keys of
  a path. A byte order mark at the front is passed over.

  As in JSON, the readers that call one another count down from the length of
  the text. Arrays and inline tables nest to a limited depth, and a path has a
  limited number of keys.
-/

namespace ProductSegments

namespace Toml

/-- How deep arrays and inline tables may nest. -/
def maxDepth : Nat := 80

/-- How many keys a path may have. -/
def maxKeys : Nat := 80

/-! ### Blanks, comments and line ends -/

/-- The characters that may stand in comments and quoted strings of one line:
    tab and everything that is not a control character. -/
def isPrintable (c : Char) : Bool := c == '\t' || (0x20 ≤ c.toNat && c.toNat ≠ 0x7F)

/-- Whether a character is a blank within a line. -/
def isInlineBlank (c : Char) : Bool := c == ' ' || c == '\t'

/-- The text behind the blanks at the front. -/
def skipBlanks (cs : List Char) : List Char := cs.dropWhile isInlineBlank

/-- Passes blanks, line ends and comments. -/
def skipTrivia : Bool → List Char → Option (List Char)
  | _, [] => some []
  | _, '\n' :: cs => skipTrivia false cs
  | _, '\r' :: '\n' :: cs => skipTrivia false cs
  | true, c :: cs => if isPrintable c then skipTrivia true cs else none
  | false, '#' :: cs => skipTrivia true cs
  | false, c :: cs => if isInlineBlank c then skipTrivia false cs else some (c :: cs)

/-- Passes what may stand behind the last token of a line, and the line end. -/
def passLineEnd (cs : List Char) : Option (List Char) :=
  let cs := skipBlanks cs
  let cs := match cs with
    | '#' :: cs => cs.dropWhile isPrintable
    | cs => cs
  match cs with
  | [] => some []
  | '\n' :: cs => some cs
  | '\r' :: '\n' :: cs => some cs
  | _ => none

/-! ### Strings -/

/-- The character of a code point, if it is one. -/
def scalarChar? (n : Nat) : Option Char :=
  if n < 0xD800 ∨ (0xE000 ≤ n ∧ n < 0x110000) then some (Char.ofNat n) else none

/-- The character that a letter behind a backslash stands for. -/
def unescape? : Char → Option Char
  | '"' => some '"'
  | '\\' => some '\\'
  | 'b' => some '\x08'
  | 'e' => some '\x1b'
  | 'f' => some '\x0c'
  | 'n' => some '\n'
  | 'r' => some '\r'
  | 't' => some '\t'
  | _ => none

/-- The number of hexadecimal digits behind an escape letter. -/
def hexWidth : Char → Nat
  | 'x' => 2
  | 'u' => 4
  | 'U' => 8
  | _ => 0

/-- Reads an escape behind its backslash. -/
def readEscape : List Char → Option (Char × List Char)
  | [] => none
  | e :: cs =>
    let width := hexWidth e
    if width = 0 then (unescape? e).map (·, cs)
    else if (cs.take width).length < width then none
    else (Text.valueIn? 16 (cs.take width)).bind fun n => (scalarChar? n).map (·, cs.drop width)

/-- Reads a basic string behind its opening quote. -/
def readBasic : Nat → List Char → Option (List Char × List Char)
  | 0, _ => none
  | _, [] => none
  | _, '"' :: cs => some ([], cs)
  | fuel + 1, '\\' :: cs => do
    let (c, cs) ← readEscape cs
    let (s, rest) ← readBasic fuel cs
    return (c :: s, rest)
  | fuel + 1, c :: cs =>
    if isPrintable c then (readBasic fuel cs).map fun (s, rest) => (c :: s, rest) else none

/-- Reads a literal string behind its opening quote. -/
def readLiteral : List Char → Option (List Char × List Char)
  | [] => none
  | '\'' :: cs => some ([], cs)
  | c :: cs =>
    if isPrintable c then (readLiteral cs).map fun (s, rest) => (c :: s, rest) else none

/-- Passes a line end at the front, if there is one. -/
def skipLineEnd : List Char → List Char
  | '\n' :: cs => cs
  | '\r' :: '\n' :: cs => cs
  | cs => cs

/-- Ends a string of several lines: of the quotes at the front three close it,
    and up to two before them belong to it. -/
def closeMultiline? (quote : Char) (cs : List Char) : Option (List Char × List Char) :=
  let quotes := min 5 (cs.takeWhile (· == quote)).length
  if quotes < 3 then none else some (List.replicate (quotes - 3) quote, cs.drop quotes)

/-- The text behind the blanks and line ends at the front. -/
def skipBlankLines : List Char → List Char
  | '\n' :: cs => skipBlankLines cs
  | '\r' :: '\n' :: cs => skipBlankLines cs
  | c :: cs => if isInlineBlank c then skipBlankLines cs else c :: cs
  | [] => []

/-- The text behind a backslash at the end of a line and the blanks and line
    ends that follow it, or `none` if more stands on the line. -/
def continueLine? (cs : List Char) : Option (List Char) :=
  match skipBlanks cs with
  | '\n' :: cs => some (skipBlankLines cs)
  | '\r' :: '\n' :: cs => some (skipBlankLines cs)
  | _ => none

/-- Reads a string of several lines behind its opening quotes. Line ends inside
    are kept as they are written. Escapes are read if `escapes` is set. -/
def readMultiline (quote : Char) (escapes : Bool) : Nat → List Char → Option (List Char × List Char)
  | 0, _ => none
  | fuel + 1, cs =>
    match closeMultiline? quote cs with
    | some done => some done
    | none =>
      let push (c : Char) (cs : List Char) : Option (List Char × List Char) :=
        (readMultiline quote escapes fuel cs).map fun (s, rest) => (c :: s, rest)
      match cs with
      | [] => none
      | '\n' :: cs => push '\n' cs
      | '\r' :: '\n' :: cs => (push '\n' cs).map fun (s, rest) => ('\r' :: s, rest)
      | c :: cs =>
        if escapes ∧ c = '\\' then
          match continueLine? cs with
          | some cs => readMultiline quote escapes fuel cs
          | none => (readEscape cs).bind fun (c, cs) => push c cs
        else if isPrintable c then push c cs
        else none

/-- Reads a string of either kind, of one line or several. -/
def readString (cs : List Char) : Option (String × List Char) :=
  let read? := match cs with
    | '"' :: '"' :: '"' :: cs => readMultiline '"' true (cs.length + 1) (skipLineEnd cs)
    | '\'' :: '\'' :: '\'' :: cs => readMultiline '\'' false (cs.length + 1) (skipLineEnd cs)
    | '"' :: cs => readBasic (cs.length + 1) cs
    | '\'' :: cs => readLiteral cs
    | _ => none
  read?.map fun (s, rest) => (String.ofList s, rest)

/-! ### Keys -/

/-- The characters of keys without quotes, ASCII letters and digits only. -/
def isBareChar (c : Char) : Bool := c.isAlphanum || c == '_' || c == '-'

/-- Reads a key between dots. -/
def readKey (cs : List Char) : Option (String × List Char) :=
  match cs with
  | '"' :: cs => (readBasic (cs.length + 1) cs).map fun (s, rest) => (String.ofList s, rest)
  | '\'' :: cs => (readLiteral cs).map fun (s, rest) => (String.ofList s, rest)
  | cs =>
    let bare := cs.takeWhile isBareChar
    if bare = [] then none else some (String.ofList bare, cs.dropWhile isBareChar)

/-- Reads keys with dots between them, at most the given number, blanks around
    keys allowed. -/
def readKeys : Nat → List Char → Option (List String × List Char)
  | 0, _ => none
  | keys + 1, cs => do
    let (key, cs) ← readKey (skipBlanks cs)
    match skipBlanks cs with
    | '.' :: cs =>
      let (path, cs) ← readKeys keys cs
      return (key :: path, cs)
    | cs => return ([key], cs)

/-- Reads a key path and the blanks around it. -/
def readPath (cs : List Char) : Option (List String × List Char) := readKeys maxKeys cs

/-! ### Values -/

/-- The characters of words that are not strings: all but those that end a
    word. -/
def isWordChar (c : Char) : Bool :=
  c ∉ ['=', ',', '[', ']', '{', '}', '#', ' ', '\t', '\r', '\n']

/-- Reads a word that is not a string. A date and a time of day may have one
    space between them. -/
def readScalar (cs : List Char) : Option (Toml × List Char) :=
  let word := cs.takeWhile isWordChar
  let rest := cs.dropWhile isWordChar
  let (word, rest) := match rest with
    | ' ' :: c :: more =>
      if isDate word ∧ c.isDigit then
        (word ++ ' ' :: (c :: more).takeWhile isWordChar, (c :: more).dropWhile isWordChar)
      else (word, rest)
    | _ => (word, rest)
  (scalar? word).map (·, rest)

mutual

/-- Reads a value that nests to the given depth at most. -/
def readValue : Nat → Nat → List Char → Option (Toml × List Char)
  | 0, _, _ => none
  | fuel + 1, depth, cs =>
    match cs with
    | '"' :: _ | '\'' :: _ => (readString cs).map fun (s, cs) => (.string s, cs)
    | '[' :: cs =>
      match depth with
      | 0 => none
      | depth + 1 => (readItems fuel depth cs).map fun (vs, cs) => (.array vs, cs)
    | '{' :: cs =>
      match depth with
      | 0 => none
      | depth + 1 => (readPairs fuel depth [] cs).map fun (es, cs) => (.table .inline es, cs)
    | cs => readScalar cs

/-- Reads the items of an array up to its closing bracket. -/
def readItems : Nat → Nat → List Char → Option (List Toml × List Char)
  | 0, _, _ => none
  | fuel + 1, depth, cs => do
    match ← skipTrivia false cs with
    | ']' :: cs => return ([], cs)
    | cs =>
      let (v, cs) ← readValue fuel depth cs
      match ← skipTrivia false cs with
      | ',' :: cs =>
        let (vs, cs) ← readItems fuel depth cs
        return (v :: vs, cs)
      | ']' :: cs => return ([v], cs)
      | _ => none

/-- Reads the pairs of an inline table up to its closing brace and adds them to
    the entries read before. -/
def readPairs : Nat → Nat → Entries → List Char → Option (Entries × List Char)
  | 0, _, _, _ => none
  | fuel + 1, depth, es, cs => do
    match ← skipTrivia false cs with
    | '}' :: cs => return (es, cs)
    | cs =>
      let (path, cs) ← readPath cs
      let cs ← pass '=' (← skipTrivia false cs)
      let (v, cs) ← readValue fuel depth (← skipTrivia false cs)
      let es ← assign? path v .written es
      match ← skipTrivia false cs with
      | ',' :: cs => readPairs fuel depth es cs
      | '}' :: cs => return (es, cs)
      | _ => none

end

/-! ### Documents -/

/-- Reads the path of a header and the given closing brackets. -/
def readHeader (close : List Char) (cs : List Char) : Option (List String × List Char) := do
  let (path, cs) ← readPath cs
  let cs ← close.foldlM (fun cs c => pass c cs) cs
  return (path, ← passLineEnd cs)

/-- Reads lines into the document, pairs going under the given header. -/
def readLines : Nat → List String → Entries → List Char → Option Entries
  | 0, _, _, _ => none
  | fuel + 1, header, root, cs => do
    match ← skipTrivia false cs with
    | [] => return root
    | '[' :: '[' :: cs =>
      let (path, cs) ← readHeader [']', ']'] cs
      readLines fuel path (← openElement? path root) cs
    | '[' :: cs =>
      let (path, cs) ← readHeader [']'] cs
      readLines fuel path (← openTable? path root) cs
    | cs =>
      let (path, cs) ← readPath cs
      let cs ← pass '=' cs
      let (v, cs) ← readValue (cs.length + 1) maxDepth (skipBlanks cs)
      let cs ← passLineEnd cs
      readLines fuel header (← assignUnder? header path v root) cs

/-- Reads a document: the entries of its outermost table. -/
def readDocument? (cs : List Char) : Option Entries :=
  let cs := match cs with
    | '\ufeff' :: cs => cs
    | cs => cs
  readLines (cs.length + 1) [] [] cs

end Toml

end ProductSegments
