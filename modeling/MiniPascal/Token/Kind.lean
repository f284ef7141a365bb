import MiniPascal.NameTable

/-! # Kinds of tokens

Every reserved word and every operator is a kind of its own, with a spelling, a four-letter mnemonic
and a number. Identifiers, literals and characters that fit nowhere are classes without a spelling.
-/

namespace MiniPascal

inductive TokenKind where
  | kwGoto | kwInteger | kwTo | kwDo | kwIf | kwThen | kwElse | kwFor | kwOf | kwWriteln | kwReadln
  | kwBegin | kwEnd | kwVar | kwWhile | kwUnit | kwLabel | kwRepeat | kwUntil | kwProcedure
  | kwDownto | kwFunction | kwReturn | kwFloat | kwString | kwArray
  | slash | star | plus | minus | leftParen | rightParen | semicolon | assign | greater | less
  | greaterEq | lessEq | equal | notEqual | comma | leftBracket | rightBracket | colon | period
  | identifier | integerLiteral | realLiteral | textLiteral | unknown
  /-- The kind that stands behind the last token. -/
  | endOfInput
deriving DecidableEq

namespace TokenKind

/-- Spelling, mnemonic, kind and number of every reserved word and operator. -/
def reservedRows : List (String × String × TokenKind × Int) :=
  [("GOTO", "GOTO", kwGoto, 0), ("INTEGER", "INTR", kwInteger, 1), ("TO", "TO__", kwTo, 2),
    ("DO", "DO__", kwDo, 3), ("IF", "IF__", kwIf, 4), ("THEN", "THEN", kwThen, 5),
    ("ELSE", "ELSE", kwElse, 6), ("FOR", "FOR_", kwFor, 7), ("OF", "OF__", kwOf, 8),
    ("WRITELN", "WTLN", kwWriteln, 9), ("READLN", "RDLN", kwReadln, 10),
    ("BEGIN", "BGIN", kwBegin, 11), ("END", "END_", kwEnd, 12), ("VAR", "VAR_", kwVar, 13),
    ("WHILE", "WHIL", kwWhile, 14), ("UNIT", "UNIT", kwUnit, 15), ("LABEL", "LABL", kwLabel, 16),
    ("REPEAT", "REPT", kwRepeat, 17), ("UNTIL", "UNTL", kwUntil, 18),
    ("PROCEDURE", "PROC", kwProcedure, 19), ("DOWNTO", "DOWN", kwDownto, 20),
    ("FUNCTION", "FUNC", kwFunction, 21), ("RETURN", "RTRN", kwReturn, 22),
    ("FLOAT", "DFPR", kwFloat, 23), ("STRING", "STRR", kwString, 24), ("ARRAY", "ARRY", kwArray, 25),
    ("/", "DVDE", slash, 30), ("*", "MTPY", star, 31), ("+", "PLUS", plus, 32),
    ("-", "MNUS", minus, 33), ("(", "LFTP", leftParen, 34), (")", "RITP", rightParen, 35),
    (";", "SCLN", semicolon, 36), (":=", "DEFN", assign, 37), (">", "GRTR", greater, 38),
    ("<", "LESS", less, 39), (">=", "GTEQ", greaterEq, 40), ("<=", "LTEQ", lessEq, 41),
    ("=", "EQUL", equal, 42), ("<>", "NTEQ", notEqual, 43), (",", "COMA", comma, 44),
    ("[", "LBRK", leftBracket, 45), ("]", "RBRK", rightBracket, 46), (":", "COLN", colon, 47),
    (".", "DOT_", period, 48)]

/-- Mnemonic, kind and number of the classes of tokens. -/
def classRows : List (String × TokenKind × Int) :=
  [("IDNT", identifier, 50), ("INTV", integerLiteral, 51), ("DFPV", realLiteral, 52),
    ("STRV", textLiteral, 53), ("UNKN", unknown, 99)]

/-- How many rows the tables of words and mnemonics may have. -/
def tableCapacity : Nat := 60

def reserved : NameTable TokenKind :=
  .ofRows tableCapacity (reservedRows.map fun row => (.ofString row.1, row.2.2.1))

def reservedCodes : NameTable Int :=
  .ofRows tableCapacity (reservedRows.map fun row => (.ofString row.1, row.2.2.2))

def mnemonicCodes : NameTable Int :=
  .ofRows tableCapacity
    ((reservedRows.map fun row => (.ofString row.2.1, row.2.2.2)) ++
      classRows.map fun row => (.ofString row.1, row.2.2))

def code (kind : TokenKind) : Int :=
  match reservedRows.find? (·.2.2.1 = kind), classRows.find? (·.2.1 = kind) with
  | some row, _ => row.2.2.2
  | none, some row => row.2.2
  | none, none => -1

/-- The spelling of a reserved word or operator. -/
def spelling (kind : TokenKind) : Text := reserved.nameFor kind

/-- The spelling of the reserved word or operator with a number. -/
def spellingOf (code : Int) : Text := reservedCodes.nameFor code

/-- The mnemonic for a number; a number without one is an unknown token. -/
def mnemonicOf (code : Int) : Text :=
  if code = endOfInput.code then "EOF_" else (mnemonicCodes.lookupCode? code).getD "UNKN"

def mnemonic (kind : TokenKind) : Text := mnemonicOf kind.code

/-- The number for a mnemonic, or -1. -/
def codeFor (mnemonic : Text) : Int := mnemonicCodes.codeFor mnemonic

/-- The spelling for a mnemonic. -/
def spellingFor (mnemonic : Text) : Text := spellingOf (codeFor mnemonic)

/-- The kinds a statement can start with. -/
def startsStatement : TokenKind → Bool
  | identifier | kwBegin | kwIf | kwWhile | kwRepeat | kwFor | kwWriteln | kwReadln => true
  | _ => false

end TokenKind

end MiniPascal
