import MiniPascal.Diagnostic
import MiniPascal.Token.Basic
import MiniPascal.Source.Input

/-! # From lines to tokens

The scanner goes over the lines of a program in order. Between tokens it passes over white space and
comments, which may span lines; a token never does. At any other character it takes the longest
identifier, number, text literal or operator that starts there, or the single character.

`scan` turns all lines into a list of `Scanned` items, one for each time a token is asked for. Each
item says which lines were read and what was complained about on the way, which token was found, and
which symbol the token registers. The last item has no token.
-/

namespace MiniPascal

/-- What happens on the way to a token. -/
inductive ScanNote where
  /-- A line was read. -/
  | line (number : Nat) (text : List Char)
  | issue (diagnostic : Diagnostic)

/-- A symbol as a token introduces it. -/
structure Registration where
  usage : Usage
  value : Value

/-- A token with the symbol it registers under its lexeme, and what is complained about in it. -/
structure Lexeme where
  token : Token
  registration : Option Registration := none
  issues : List Diagnostic := []

/-- All that one request for a token brings. -/
structure Scanned where
  notes : List ScanNote
  /-- The token, with its registration; the end of the input has none. -/
  lexeme : Option Lexeme
  /-- The number of the last line read. -/
  line : Nat

namespace Scan

/-! ## Characters -/

def isLetter (c : Char) : Bool := ('A' ≤ c && c ≤ 'Z') || ('a' ≤ c && c ≤ 'z')

def isIdentifierChar (c : Char) : Bool := isLetter c || isDigit c || c == '_' || c == '$'

/-- White space between tokens. The end of a line counts as white space too. -/
def isSpace (c : Char) : Bool := c == ' ' || c == '\t' || c == '\n' || c == '\r'

/-- Whether an operator of two characters may start here. -/
def startsPair (c : Char) : Bool := c == ':' || c == '<' || c == '>'

/-! ## Gaps -/

/-- Where a gap between tokens stands. -/
inductive Gap where
  /-- Outside all comments. -/
  | space
  /-- In a comment that a closing brace ends. -/
  | braces
  /-- In a comment that a star and a parenthesis end. -/
  | stars
deriving DecidableEq

/-- Passes over a gap within one line. Outside comments it stops at the first character of a token;
otherwise it reaches the end of the line. -/
def skipLine : Gap → List Char → Gap × List Char
  | gap, [] => (gap, [])
  | .space, '(' :: '*' :: rest => skipLine .stars rest
  | .space, c :: rest =>
    if isSpace c then skipLine .space rest
    else if c = '\x7b' then skipLine .braces rest
    else (.space, c :: rest)
  | .braces, c :: rest => if c = '\x7d' then skipLine .space rest else skipLine .braces rest
  | .stars, '*' :: ')' :: rest => skipLine .space rest
  | .stars, _ :: rest => skipLine .stars rest

/-- A place in the program text: the rest of a line, its number, and the lines below. -/
structure Place where
  here : List Char
  number : Nat
  below : List (List Char)

/-- Passes over a gap that may span lines. The place it stops at has a token's first character, or
nothing if the text is used up; the gap tells whether a comment is still open then. -/
def skipGap (gap : Gap) (here : List Char) (number : Nat) :
    List (List Char) → List ScanNote × Gap × Place
  | [] =>
    let (gap, rest) := skipLine gap here
    ([], gap, ⟨rest, number, []⟩)
  | next :: below =>
    match skipLine gap here with
    | (gap, []) =>
      let (notes, found) := skipGap gap next (number + 1) below
      (.line (number + 1) next :: notes, found)
    | (gap, rest) => ([], gap, ⟨rest, number, next :: below⟩)

/-! ## Tokens within a line -/

/-- A row of characters cut to a limit, with a complaint if something was lost. -/
def cutTo (limit : Nat) (row : List Char) (complain : List Char → Diagnostic) :
    List Char × List Diagnostic :=
  if row.length ≤ limit then (row, []) else (row.take limit, [complain (row.take limit)])

/-- An identifier or a reserved word. -/
def word (row : List Char) : Lexeme :=
  let (lexeme, issues) := cutTo lexemeLimits.identifier row .identifierCut
  match TokenKind.reserved.lookupName? (.ofChars lexeme) with
  | some kind => { token := ⟨lexeme, kind⟩, issues }
  | none =>
    { token := ⟨lexeme, .identifier⟩, registration := some ⟨.var, .int 0⟩, issues }

/-- The parts of a number: the digits, those after a point, and an exponent mark with its sign and
digits. -/
structure NumberParts where
  whole : List Char
  fraction : Option (List Char)
  exponent : Option (List Char × List Char)

/-- Takes a point and the digits after it. -/
def takeFraction : List Char → Option (List Char) × List Char
  | '.' :: rest => (some (rest.takeWhile isDigit), rest.dropWhile isDigit)
  | rest => (none, rest)

/-- Takes an exponent: a mark directly followed by a digit or a sign, and the digits after it. -/
def takeExponent : List Char → Option (List Char × List Char) × List Char
  | mark :: next :: rest =>
    if mark = 'E' ∨ mark = 'e' then
      if next = '+' ∨ next = '-' then
        (some ([mark, next], rest.takeWhile isDigit), rest.dropWhile isDigit)
      else if isDigit next then
        (some ([mark], (next :: rest).takeWhile isDigit), (next :: rest).dropWhile isDigit)
      else (none, mark :: next :: rest)
    else (none, mark :: next :: rest)
  | rest => (none, rest)

def takeNumber (row : List Char) : NumberParts × List Char :=
  let (fraction, rest) := takeFraction (row.dropWhile isDigit)
  let (exponent, rest) := takeExponent rest
  (⟨row.takeWhile isDigit, fraction, exponent⟩, rest)

/-- A number cut to the limits, with its complaints. -/
def NumberParts.cut (parts : NumberParts) : List Char × List Diagnostic :=
  let (lexeme, issues) := cutTo lexemeLimits.whole parts.whole .wholeCut
  let (lexeme, issues) := match parts.fraction with
    | none => (lexeme, issues)
    | some digits =>
      let before := lexeme ++ ['.']
      let (kept, cut) := cutTo lexemeLimits.fraction digits fun kept => .fractionCut (before ++ kept)
      (before ++ kept, issues ++ cut)
  match parts.exponent with
  | none => (lexeme, issues)
  | some (mark, digits) =>
    let before := lexeme ++ mark
    let (kept, cut) := cutTo lexemeLimits.exponent digits fun kept => .exponentCut (before ++ kept)
    (before ++ kept, issues ++ cut)

/-- The token of a number: an integer if it has neither point nor exponent, else a real. -/
def number (parts : NumberParts) : Lexeme :=
  let (lexeme, issues) := parts.cut
  let read : Option (TokenKind × Value) :=
    if parts.fraction.isNone && parts.exponent.isNone then
      (readWhole? lexeme).map fun n => (.integerLiteral, .int n)
    else (readReal? lexeme).map fun x => (.realLiteral, .real x)
  match read with
  | some (kind, value) =>
    { token := ⟨lexeme, kind⟩, registration := some ⟨.constant, value⟩, issues }
  | none => { token := ⟨lexeme, .unknown⟩, issues := issues ++ [.malformedNumber lexeme] }

/-- A text literal, given what follows its first quote. -/
def textLiteral (quote : Char) (row : List Char) : Lexeme × List Char :=
  let inner := row.takeWhile (· ≠ quote)
  match row.dropWhile (· ≠ quote) with
  | [] =>
    ({ token := ⟨quote :: inner, .unknown⟩, issues := [.openText (quote :: inner)] }, [])
  | _ :: rest =>
    ({ token := ⟨quote :: inner ++ [quote], .textLiteral⟩
       registration := some ⟨.constant, .text (.ofChars inner)⟩ }, rest)

/-- The kind of an operator; a character that is none is unknown. -/
def operatorKind (lexeme : List Char) : TokenKind :=
  (TokenKind.reserved.lookupName? (.ofChars lexeme)).getD .unknown

/-- An operator of two characters if there is one, else the single character. -/
def operator (c : Char) (row : List Char) : Lexeme × List Char :=
  match row with
  | next :: rest =>
    if startsPair c && (TokenKind.reserved.lookupName? (.ofChars [c, next])).isSome then
      ({ token := ⟨[c, next], operatorKind [c, next]⟩ }, rest)
    else ({ token := ⟨[c], operatorKind [c]⟩ }, row)
  | [] => ({ token := ⟨[c], operatorKind [c]⟩ }, [])

/-- The token that starts with `c`, and what follows it in its line. -/
def lexeme (quote c : Char) (row : List Char) : Lexeme × List Char :=
  if isLetter c then
    (word (c :: row.takeWhile isIdentifierChar), row.dropWhile isIdentifierChar)
  else if isDigit c then
    let (parts, rest) := takeNumber (c :: row)
    (number parts, rest)
  else if c = quote then textLiteral quote row
  else operator c row

/-! ## The whole text -/

/-- What is complained about at the end of the text. -/
def endNotes (gap : Gap) (failure : Option Failure) : List ScanNote :=
  (failure.toList.map fun failure => .issue (.unreadable failure)) ++
    if gap = .space then [] else [.issue .openComment]

/-- All items from a place on. -/
def items (quote : Char) (failure : Option Failure) : (fuel : Nat) → Place → List Scanned
  | 0, _ => []
  | fuel + 1, place =>
    match skipGap .space place.here place.number place.below with
    | (notes, gap, ⟨[], number, _⟩) => [⟨notes ++ endNotes gap failure, none, number⟩]
    | (notes, _, ⟨c :: row, number, below⟩) =>
      let (found, rest) := lexeme quote c row
      ⟨notes ++ found.issues.map .issue, some found, number⟩ ::
        items quote failure fuel ⟨rest, number, below⟩

/-- A bound on the number of tokens from a place on. -/
def Place.size (place : Place) : Nat :=
  place.here.length + place.below.flatten.length

end Scan

def scan (quote : Char) (lines : List (List Char)) (failure : Option Failure) : List Scanned :=
  let start : Scan.Place := ⟨[], 0, lines⟩
  Scan.items quote failure (start.size + 1) start

end MiniPascal
