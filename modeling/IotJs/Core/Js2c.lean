import IotJs.Lib.Substitution

/-!
# `IotJs.Core.Js2c`: the built-in modules as C arrays

`removeComments` and `removeWhitespaces` from `tools/js2c.py`, and `printJSContents` without
snapshots, as far as the characters that it prints. A source text is a list of characters, and the
regular expressions are matchers for `re.sub`.

With `re.DOTALL` the dot stands for every character, and with `re.MULTILINE` the `$` stands before
`\n` and at the end of the text, but not before `\r`.
-/

set_option autoImplicit false

namespace IotJs

namespace Js2c

open Substitution

/-- `\".*?\"` or `\'.*?\'` behind its first character: up to the next such character. Group 1 stays
as it is. -/
def quoted (quote : Char) (text : List Char) : Option (Nat × List Char) :=
  (text.findIdx? (· = quote)).map fun i => (i + 2, quote :: text.take (i + 1))

/-- Group 2 behind its first character: `/\*.*?\*/` or `//[^\r\n]*$`. -/
def comment : List Char → Option (Nat × List Char)
  | '*' :: text => (Delimited.cut '*' '/' text).map fun parts => (parts.1.length + 4, [])
  | '/' :: text =>
      -- no shorter part of the line has an end of a line behind it
      let line := text.takeWhile fun c => c ≠ '\r' && c ≠ '\n'
      let next := (text.drop line.length).head?
      if next = none ∨ next = some '\n' then some (line.length + 2, []) else none
  | _ => none

/-- The expression of `removeComments`, with its `_replacer`. -/
def commentPattern : Matcher Char
  | [] => none
  | c :: text =>
      if c = '\x22' ∨ c = '\x27' then quoted c text
      else if c = '/' then comment text
      else none

def removeComments (code : List Char) : List Char := sub commentPattern code

/-- `re.sub('\n+', '\n', re.sub('\n +', '\n', code))` -/
def removeWhitespaces (code : List Char) : List Char :=
  sub (repeats '\n') (sub (blanks '\n' ' ') code)

/-- What a release build makes of a text. -/
def minimize (code : List Char) : List Char := removeWhitespaces (removeComments code)

/-- The characters that `printJSContents` prints, and the length that it returns. -/
def printJSContents (debug : Bool) (js : List Char) : List Char × Nat :=
  let code := js ++ ['\x00']
  let code := if debug then code else minimize code
  (code, code.length - 1)

end Js2c

end IotJs
