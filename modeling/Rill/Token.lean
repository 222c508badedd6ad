import Rill.Place
import Rill.Reserved
import Rill.Utf8

/-!
# Token — what a lexeme is, and how it is written out

* `Token.Kind` — the kinds of token, and `Kind.name`, the label of each in a listing;
* `Token` — a kind, the text it was read from, and the line where that text begins;
* `Token.render`, `Token.renderAll` — one token, and a whole list of them, on one line;
* `Lexeme.isInteger`, `Lexeme.isIdentifier` — the two shapes that a word can have;
* `Lexeme.classify` — the kind of token that a word is, if it is one at all.
-/

namespace Rill
namespace Token

/-! ## Kinds -/

/-- `string` is set aside for string literals; no lexeme has that kind yet. -/
inductive Kind
  | punctuation (mark : Punctuation)
  | keyword (word : Keyword)
  | identifier
  | integer
  | string
  | endOfInput
  | error
  deriving DecidableEq, Repr

namespace Kind

def name : Kind → String
  | .punctuation .semicolon => "SEMI"
  | .punctuation .equals => "EQUALS"
  | .punctuation .leftParen => "LEFT_PAREN"
  | .punctuation .rightParen => "RIGHT_PAREN"
  | .punctuation .plus => "PLUS"
  | .keyword .printKw => "PRINT"
  | .keyword .letKw => "LET"
  | .keyword .whileKw => "WHILE"
  | .keyword .ifKw => "IF"
  | .keyword .thenKw => "THEN"
  | .keyword .elseKw => "ELSE"
  | .identifier => "IDENT"
  | .integer => "INT"
  | .string => "STRING"
  | .endOfInput => "EOF"
  | .error => "ERROR"

/-- Whether the label alone does not tell what was read, so that the lexeme is written behind it. -/
def showsLexeme : Kind → Bool
  | .identifier | .integer | .string | .error => true
  | .punctuation _ | .keyword _ | .endOfInput => false

def isPunctuation : Kind → Bool
  | .punctuation _ => true
  | _ => false

def isKeyword : Kind → Bool
  | .keyword _ => true
  | _ => false

end Kind

end Token

/-! ## Tokens -/

structure Token where
  kind : Token.Kind
  lexeme : String
  line : LineNumber
  deriving DecidableEq, Repr

namespace Token

/-- The lexeme of the token that closes a list; no text of the source belongs to it. -/
def endLexeme : String := "EOF"

def endOfInput (line : LineNumber) : Token :=
  ⟨.endOfInput, endLexeme, line⟩

def render (t : Token) : String :=
  if t.kind.showsLexeme then t.kind.name ++ " " ++ t.lexeme else t.kind.name

def renderAll (ts : List Token) : String :=
  "[" ++ ", ".intercalate (ts.map render) ++ "]"

end Token

/-! ## Words -/

namespace Lexeme

/-- One or more digits. -/
def isInteger (text : String) : Bool :=
  !(Utf8.bytes text).isEmpty && (Utf8.bytes text).all Byte.isDigit

/-- A small letter, then letters, digits and underscores. -/
def isIdentifier (text : String) : Bool :=
  match Utf8.bytes text with
  | [] => false
  | b :: rest => Byte.isLower b && rest.all Byte.isWord

/-- Keywords look like identifiers, so they are tried first. -/
def classify (text : String) : Option Token.Kind :=
  match Keyword.ofWord? text with
  | some word => some (.keyword word)
  | none =>
      if isInteger text then some .integer
      else if isIdentifier text then some .identifier
      else none

end Lexeme

end Rill
