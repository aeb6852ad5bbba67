/-!
# Token kinds

The kinds of tokens, the spelling of those that have only one, and the table of reserved words.
-/

namespace Scriptlet

namespace Token

/-- What a token is. -/
inductive Kind where
  | leftParen
  | rightParen
  | leftBrace
  | rightBrace
  | comma
  | dot
  | minus
  | plus
  | semicolon
  | slash
  | star
  | bang
  | bangEqual
  | equal
  | equalEqual
  | greater
  | greaterEqual
  | less
  | lessEqual
  | identifier
  | string
  | number
  | andWord
  | breakWord
  | classWord
  | continueWord
  | elseWord
  | falseWord
  | funWord
  | forWord
  | ifWord
  | nilWord
  | orWord
  | printWord
  | returnWord
  | sleepWord
  | superWord
  | thisWord
  | trueWord
  | varWord
  | whileWord
  | endOfInput
  deriving DecidableEq, Repr

namespace Kind

/-- The name of a kind, with which tokens are shown. -/
def name : Kind → String
  | .leftParen => "LeftParen"
  | .rightParen => "RightParen"
  | .leftBrace => "LeftBrace"
  | .rightBrace => "RightBrace"
  | .comma => "Comma"
  | .dot => "Dot"
  | .minus => "Minus"
  | .plus => "Plus"
  | .semicolon => "Semicolon"
  | .slash => "Slash"
  | .star => "Star"
  | .bang => "Bang"
  | .bangEqual => "BangEqual"
  | .equal => "Equal"
  | .equalEqual => "EqualEqual"
  | .greater => "Greater"
  | .greaterEqual => "GreaterEqual"
  | .less => "Less"
  | .lessEqual => "LessEqual"
  | .identifier => "Identifier"
  | .string => "String"
  | .number => "Number"
  | .andWord => "And"
  | .breakWord => "Break"
  | .classWord => "Class"
  | .continueWord => "Continue"
  | .elseWord => "Else"
  | .falseWord => "False"
  | .funWord => "Fun"
  | .forWord => "For"
  | .ifWord => "If"
  | .nilWord => "Nil"
  | .orWord => "Or"
  | .printWord => "Print"
  | .returnWord => "Return"
  | .sleepWord => "Sleep"
  | .superWord => "Super"
  | .thisWord => "This"
  | .trueWord => "True"
  | .varWord => "Var"
  | .whileWord => "While"
  | .endOfInput => "Eof"

/-- The only text that a token of this kind can have in a source, if there is one. The end of input
has no text. -/
def spelling? : Kind → Option String
  | .leftParen => some "("
  | .rightParen => some ")"
  | .leftBrace => some "\x7b"
  | .rightBrace => some "\x7d"
  | .comma => some ","
  | .dot => some "."
  | .minus => some "-"
  | .plus => some "+"
  | .semicolon => some ";"
  | .slash => some "/"
  | .star => some "*"
  | .bang => some "!"
  | .bangEqual => some "!="
  | .equal => some "="
  | .equalEqual => some "=="
  | .greater => some ">"
  | .greaterEqual => some ">="
  | .less => some "<"
  | .lessEqual => some "<="
  | .andWord => some "and"
  | .breakWord => some "break"
  | .classWord => some "class"
  | .continueWord => some "continue"
  | .elseWord => some "else"
  | .falseWord => some "false"
  | .funWord => some "fun"
  | .forWord => some "for"
  | .ifWord => some "if"
  | .nilWord => some "nil"
  | .orWord => some "or"
  | .printWord => some "print"
  | .returnWord => some "return"
  | .sleepWord => some "sleep"
  | .superWord => some "super"
  | .thisWord => some "this"
  | .trueWord => some "true"
  | .varWord => some "var"
  | .whileWord => some "while"
  | .endOfInput => some ""
  | .identifier | .string | .number => none

/-- The kinds of reserved words. -/
def reserved : List Kind := [
  andWord, breakWord, classWord, continueWord, elseWord, falseWord, funWord, forWord, ifWord,
  nilWord, orWord, printWord, returnWord, sleepWord, superWord, thisWord, trueWord, varWord,
  whileWord]

/-- The kinds of operators and punctuation marks. -/
def symbols : List Kind := [
  leftParen, rightParen, leftBrace, rightBrace, comma, dot, minus, plus, semicolon, slash, star,
  bang, bangEqual, equal, equalEqual, greater, greaterEqual, less, lessEqual]

/-- The kind of a reserved word. -/
def keyword? (text : String) : Option Kind :=
  reserved.find? fun kind => kind.spelling? = some text

end Kind

end Token

end Scriptlet
