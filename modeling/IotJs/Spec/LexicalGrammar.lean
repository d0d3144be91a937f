import IotJs.Lib.MaximalMunch

/-!
# `IotJs.Spec.LexicalGrammar`: the tokens of a JavaScript text

The lexical grammar of ECMAScript 5 as an automaton, which says what the tokens of a source text
are. It is a statement of the language that the modules are written in, and no translation.

Whether a slash begins a regular expression or is a division is decided by the syntactic grammar,
from the tokens before it and the ends of lines in front of them (a `++` behind the end of a line
belongs to what follows). It is the parameter `goal` here. A character beyond ASCII that is no
white space and ends no line is taken for a letter, and a backslash outside of a literal for the
beginning of an escape in an identifier. What stands behind the backslash in a literal is not
looked at. So every text of the language has its tokens, and some other texts have tokens too.
-/

set_option autoImplicit false

namespace IotJs

open MaximalMunch

namespace LexicalGrammar

/-- What has been read of an element. -/
inductive LexState where
  | whiteSpace
  | lineTerminator
  | identifier
  /-- a number that is `0` so far, has digits only, or has a point, or digits in its exponent -/
  | zero
  | int
  | frac
  | exponent
  | hex
  /-- a number that needs another character -/
  | exponentMark
  | exponentSign
  | hexMark
  /-- a number with an identifier behind it -/
  | bad
  | dot
  | punctuator (text : List Char)
  | slash
  | slashAssign
  | string (quote : Char)
  | stringEscape (quote : Char)
  /-- behind the first character of a line continuation `\r\n` -/
  | stringReturn (quote : Char)
  | stringEnd
  | regexStart
  | regexBody
  | regexEscape
  | regexClass
  | regexClassEscape
  | regexEnd
  | lineComment
  | blockComment
  | blockStar
  | blockEnd
deriving DecidableEq, Repr

open LexState

/-! ### Characters -/

def isLineTerminator (c : Char) : Bool :=
  c = '\n' || c = '\r' || c = '\u2028' || c = '\u2029'

def isWhiteSpace (c : Char) : Bool :=
  c = '\t' || c = '\x0b' || c = '\x0c' || c = ' ' || c = '\xa0' || c = '\u1680' || c = '\u180e' ||
    ('\u2000' ≤ c && c ≤ '\u200a') || c = '\u202f' || c = '\u205f' || c = '\u3000' || c = '\ufeff'

def isQuote (c : Char) : Bool := c = '\x22' || c = '\x27'

def isIdentifierPart (c : Char) : Bool :=
  c.isAlphanum || c = '$' || c = '_' || c = '\x5c' ||
    ('\x80' ≤ c && !isWhiteSpace c && !isLineTerminator c)

def isHexDigit (c : Char) : Bool :=
  c.isDigit || ('a' ≤ c && c ≤ 'f') || ('A' ≤ c && c ≤ 'F')

/-- But for the dot and those with a slash. Each is a character behind another one of them, or a
single character. -/
def punctuators : List (List Char) :=
  [['{'], ['}'], ['('], [')'], ['['], [']'], [';'], [','], ['<'], ['>'], ['<', '='], ['>', '='],
    ['=', '='], ['!', '='], ['=', '=', '='], ['!', '=', '='], ['+'], ['-'], ['*'], ['%'],
    ['+', '+'], ['-', '-'], ['<', '<'], ['>', '>'], ['>', '>', '>'], ['&'], ['|'], ['^'], ['!'],
    ['~'], ['&', '&'], ['|', '|'], ['?'], [':'], ['='], ['+', '='], ['-', '='], ['*', '='],
    ['%', '='], ['<', '<', '='], ['>', '>', '='], ['>', '>', '>', '='], ['&', '='], ['|', '='],
    ['^', '=']]

/-! ### The automaton -/

/-- The first character of an element. -/
def start (regex : Bool) (c : Char) : Option LexState :=
  if isWhiteSpace c then some whiteSpace
  else if isLineTerminator c then some lineTerminator
  else if c = '0' then some zero
  else if c.isDigit then some int
  else if isIdentifierPart c then some identifier
  else if isQuote c then some (string c)
  else if c = '.' then some dot
  else if c = '/' then some (if regex then regexStart else slash)
  else if [c] ∈ punctuators then some (punctuator [c])
  else none

/-- Behind the digits of an exponent, or of a hexadecimal number, which are taken up by `next`. -/
def endOfNumber (c : Char) : Option LexState := if isIdentifierPart c then some bad else none

/-- Behind the digits of a decimal number. -/
def decimal (next : LexState) (c : Char) : Option LexState :=
  if c.isDigit then some next
  else if c = 'e' ∨ c = 'E' then some exponentMark
  else endOfNumber c

/-- A character of a string. -/
def stringChar (quote c : Char) : Option LexState :=
  if c = quote then some stringEnd
  else if c = '\x5c' then some (stringEscape quote)
  else if isLineTerminator c then none
  else some (string quote)

/-- A character of a regular expression, outside of a class. -/
def regexChar (c : Char) : Option LexState :=
  if c = '\x5c' then some regexEscape
  else if c = '[' then some regexClass
  else if isLineTerminator c then none
  else some regexBody

def step : LexState → Char → Option LexState
  | whiteSpace, _ | lineTerminator, _ | bad, _ | slashAssign, _ | stringEnd, _ | blockEnd, _ => none
  | identifier, c => if isIdentifierPart c then some identifier else none
  | zero, c =>
      if c = 'x' ∨ c = 'X' then some hexMark
      else if c = '.' then some frac
      else decimal int c
  | int, c => if c = '.' then some frac else decimal int c
  | frac, c => decimal frac c
  | exponent, c => if c.isDigit then some exponent else endOfNumber c
  | hex, c => if isHexDigit c then some hex else endOfNumber c
  | exponentMark, c =>
      if c.isDigit then some exponent
      else if c = '+' ∨ c = '-' then some exponentSign
      else none
  | exponentSign, c => if c.isDigit then some exponent else none
  | hexMark, c => if isHexDigit c then some hex else none
  | dot, c => if c.isDigit then some frac else none
  | punctuator text, c =>
      if text ++ [c] ∈ punctuators then some (punctuator (text ++ [c])) else none
  | slash, c =>
      if c = '/' then some lineComment
      else if c = '*' then some blockComment
      else if c = '=' then some slashAssign
      else none
  | string quote, c => stringChar quote c
  | stringEscape quote, c => if c = '\r' then some (stringReturn quote) else some (string quote)
  | stringReturn quote, c => if c = '\n' then some (string quote) else stringChar quote c
  | regexStart, c =>
      if c = '/' then some lineComment
      else if c = '*' then some blockComment
      else regexChar c
  | regexBody, c => if c = '/' then some regexEnd else regexChar c
  | regexEscape, c => if isLineTerminator c then none else some regexBody
  | regexClass, c =>
      if c = ']' then some regexBody
      else if c = '\x5c' then some regexClassEscape
      else if isLineTerminator c then none
      else some regexClass
  | regexClassEscape, c => if isLineTerminator c then none else some regexClass
  | regexEnd, c => if isIdentifierPart c then some regexEnd else none
  | lineComment, c => if isLineTerminator c then none else some lineComment
  | blockComment, c => if c = '*' then some blockStar else some blockComment
  | blockStar, c =>
      if c = '/' then some blockEnd else if c = '*' then some blockStar else some blockComment

def final : LexState → Bool
  | exponentMark | exponentSign | hexMark | bad | string _ | stringEscape _ | stringReturn _
  | regexStart | regexBody | regexEscape | regexClass | regexClassEscape | blockComment
  | blockStar => false
  | _ => true

/-- An element of a text: white space, the end of a line, a comment, or a token. -/
abbrev Element := Lexeme Char LexState

def isToken (e : Element) : Bool :=
  match e.state with
  | whiteSpace | lineTerminator | lineComment | blockEnd => false
  | _ => true

/-- A line ends in the element. -/
def endsLine (e : Element) : Bool :=
  match e.state with
  | lineTerminator => true
  | blockEnd => e.text.any isLineTerminator
  | _ => false

/-- What stands before an element: the tokens, each with whether a line ends in front of it, and
whether a line has ended since. -/
structure Context where
  tokens : List (Bool × Element) := []
  line : Bool := false
deriving DecidableEq, Repr

def Context.next (k : Context) (e : Element) : Context :=
  if isToken e then { tokens := k.tokens ++ [(k.line, e)] }
  else { k with line := k.line || endsLine e }

/-- The elements of a text. -/
def automaton (goal : List (Bool × Element) → Bool) : Automaton Char LexState Context where
  start k := start (goal k.tokens)
  step := step
  final := final
  next := Context.next

variable (goal : List (Bool × Element) → Bool)

def elements (text : List Char) : Option (List Element) := (automaton goal).lex {} text

/-- The tokens of a text. -/
def tokens (text : List Char) : Option (List Element) :=
  (elements goal text).map fun es => es.filter fun e => isToken e

end LexicalGrammar

end IotJs
