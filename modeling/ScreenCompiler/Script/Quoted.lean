/-!
# Quoted strings

String literals in single quotes.  The backslash, the quote and the line feed are
escaped; a carriage return is left out.
-/

namespace ScreenCompiler.Script

namespace Quoted

def escape (c : Char) : List Char :=
  if c = '\\' then ['\\', '\\']
  else if c = '\'' then ['\\', '\'']
  else if c = '\n' then ['\\', 'n']
  else if c = '\r' then []
  else [c]

def body (text : List Char) : List Char :=
  text.flatMap escape

def encode (text : List Char) : List Char :=
  '\'' :: body text ++ ['\'']

end Quoted

/-- A text as a string literal. -/
def quote (text : String) : String :=
  String.ofList (Quoted.encode text.toList)

end ScreenCompiler.Script
