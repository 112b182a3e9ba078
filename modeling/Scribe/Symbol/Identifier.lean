import Scribe.Text.Alphanumeric

/-!
Turning any name into characters that an identifier may hold. An arity mark, a backquote with the
digits after it, vanishes; every other character that no identifier may hold becomes an underscore.
-/

namespace Scribe

def isIdentifierChar (c : Char) : Bool :=
  Text.isAlphanumeric c || c = '_'

def identifierChar (c : Char) : Char :=
  if isIdentifierChar c then c else '_'

def sanitizedChars : (inArity : Bool) → List Char → List Char
  | _, [] => []
  | inArity, c :: rest =>
    if c = '\x60' then sanitizedChars true rest
    else if inArity && c.isDigit then sanitizedChars true rest
    else identifierChar c :: sanitizedChars false rest

def sanitize (name : String) : String :=
  .ofList (sanitizedChars false name.toList)

end Scribe
