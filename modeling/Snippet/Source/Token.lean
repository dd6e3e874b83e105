import Snippet.Decimal.Layout
import Snippet.Text.Span

/-!
Tokens: literals, names, keywords and symbols, each with the text that messages show.
-/

namespace Snippet

/-- The reserved words. -/
inductive Keyword where
  | trueWord
  | falseWord
  | nullWord
  | usingWord
  | namespaceWord
  | classWord
  | staticWord
  | publicWord
  | privateWord
  | internalWord
  | protectedWord
  | voidWord
  | returnWord
  | ifWord
  | elseWord
  | whileWord
  | forWord
  | breakWord
  | continueWord
  | newWord
  | refWord
  | outWord
  | inWord
  | boolWord
  | intWord
  | longWord
  | doubleWord
  | stringWord
  | objectWord
deriving DecidableEq, Repr

namespace Keyword

/-- Every reserved word. -/
def all : List Keyword :=
  [trueWord, falseWord, nullWord, usingWord, namespaceWord, classWord, staticWord, publicWord,
    privateWord, internalWord, protectedWord, voidWord, returnWord, ifWord, elseWord, whileWord,
    forWord, breakWord, continueWord, newWord, refWord, outWord, inWord, boolWord, intWord,
    longWord, doubleWord, stringWord, objectWord]

/-- The spelling of a reserved word. -/
def spelling : Keyword → String
  | trueWord => "true"
  | falseWord => "false"
  | nullWord => "null"
  | usingWord => "using"
  | namespaceWord => "namespace"
  | classWord => "class"
  | staticWord => "static"
  | publicWord => "public"
  | privateWord => "private"
  | internalWord => "internal"
  | protectedWord => "protected"
  | voidWord => "void"
  | returnWord => "return"
  | ifWord => "if"
  | elseWord => "else"
  | whileWord => "while"
  | forWord => "for"
  | breakWord => "break"
  | continueWord => "continue"
  | newWord => "new"
  | refWord => "ref"
  | outWord => "out"
  | inWord => "in"
  | boolWord => "bool"
  | intWord => "int"
  | longWord => "long"
  | doubleWord => "double"
  | stringWord => "string"
  | objectWord => "object"

/-- The reserved word with a given spelling. -/
def ofSpelling? (word : String) : Option Keyword := all.find? (·.spelling == word)

theorem ofSpelling?_spelling (keyword : Keyword) : ofSpelling? keyword.spelling = some keyword := by
  cases keyword <;> decide

end Keyword

/-- Punctuation and operators. -/
inductive Symbol where
  | leftParen
  | rightParen
  | leftBrace
  | rightBrace
  | semicolon
  | comma
  | dot
  | question
  | colon
  | plus
  | minus
  | star
  | slash
  | percent
  | plusPlus
  | minusMinus
  | assign
  | plusAssign
  | minusAssign
  | starAssign
  | slashAssign
  | percentAssign
  | equal
  | notEqual
  | less
  | greater
  | lessEqual
  | greaterEqual
  | andAnd
  | orOr
  | bang
deriving DecidableEq, Repr

namespace Symbol

/-- The characters of a symbol. -/
def spelling : Symbol → String
  | leftParen => "("
  | rightParen => ")"
  | leftBrace => "\x7b"
  | rightBrace => "\x7d"
  | semicolon => ";"
  | comma => ","
  | dot => "."
  | question => "?"
  | colon => ":"
  | plus => "+"
  | minus => "-"
  | star => "*"
  | slash => "/"
  | percent => "%"
  | plusPlus => "++"
  | minusMinus => "--"
  | assign => "="
  | plusAssign => "+="
  | minusAssign => "-="
  | starAssign => "*="
  | slashAssign => "/="
  | percentAssign => "%="
  | equal => "=="
  | notEqual => "!="
  | less => "<"
  | greater => ">"
  | lessEqual => "<="
  | greaterEqual => ">="
  | andAnd => "&&"
  | orOr => "||"
  | bang => "!"

/-- The symbol of two characters. -/
def pair? : Char → Char → Option Symbol
  | '+', '+' => some plusPlus
  | '+', '=' => some plusAssign
  | '-', '-' => some minusMinus
  | '-', '=' => some minusAssign
  | '*', '=' => some starAssign
  | '/', '=' => some slashAssign
  | '%', '=' => some percentAssign
  | '=', '=' => some equal
  | '!', '=' => some notEqual
  | '<', '=' => some lessEqual
  | '>', '=' => some greaterEqual
  | '&', '&' => some andAnd
  | '|', '|' => some orOr
  | _, _ => none

/-- The symbol of one character. -/
def single? : Char → Option Symbol
  | '(' => some leftParen
  | ')' => some rightParen
  | '\x7b' => some leftBrace
  | '\x7d' => some rightBrace
  | ';' => some semicolon
  | ',' => some comma
  | '.' => some dot
  | '?' => some question
  | ':' => some colon
  | '+' => some plus
  | '-' => some minus
  | '*' => some star
  | '/' => some slash
  | '%' => some percent
  | '=' => some assign
  | '!' => some bang
  | '<' => some less
  | '>' => some greater
  | _ => none

end Symbol

/-- A token without its place. -/
inductive Token where
  | int (value : Int32)
  | long (value : Int64)
  | double (value : Float)
  | text (value : String)
  | name (value : String)
  | keyword (word : Keyword)
  | symbol (sign : Symbol)
  | endOfFile

namespace Token

/-- The token as messages show it. -/
def shown : Token → String
  | int value => toString value.toInt
  | long value => toString value.toInt ++ "L"
  | double value => Decimal.Layout.literal.write value
  | text value => "\"" ++ value ++ "\""
  | name value => value
  | keyword word => word.spelling
  | symbol sign => sign.spelling
  | endOfFile => "end-of-file"

/-- Whether a token is a given symbol. -/
def isSymbol (token : Token) (sign : Symbol) : Bool :=
  match token with
  | symbol found => found == sign
  | _ => false

/-- Whether a token is a given reserved word. -/
def isKeyword (token : Token) (word : Keyword) : Bool :=
  match token with
  | keyword found => found == word
  | _ => false

/-- Whether a token is a name. -/
def isName : Token → Bool
  | name _ => true
  | _ => false

end Token

/-- A token with the range of text that it was read from. -/
structure PlacedToken where
  token : Token
  span : Span

end Snippet
