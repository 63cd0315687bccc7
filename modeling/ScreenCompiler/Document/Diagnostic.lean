/-!
# Diagnostics

What can be wrong with a screen source.  Reading never fails; it records the place
and goes on.
-/

namespace ScreenCompiler

inductive Diagnostic where
  | unterminatedTag (tag : String) (line : Nat)
  | unterminatedFunction (name : String) (line : Nat)
  | unterminatedStylesheet (line : Nat)
  | unterminatedValue (name : String) (line : Nat)
  | unmatchedClosingTag (tag : String) (line : Nat)
  deriving DecidableEq, Repr

namespace Diagnostic

def line : Diagnostic → Nat
  | unterminatedTag _ line => line
  | unterminatedFunction _ line => line
  | unterminatedStylesheet line => line
  | unterminatedValue _ line => line
  | unmatchedClosingTag _ line => line

def message (diagnostic : Diagnostic) : String :=
  let complaint := match diagnostic with
    | unterminatedTag tag _ => "<" ++ tag ++ "> is never closed"
    | unterminatedFunction name _ => "body of " ++ name ++ "() is never closed"
    | unterminatedStylesheet _ => "stylesheet block is never closed"
    | unterminatedValue name _ => "value of \x60" ++ name ++ "\x60 is never closed"
    | unmatchedClosingTag tag _ => "</" ++ tag ++ "> closes nothing"
  "line " ++ toString diagnostic.line ++ ": " ++ complaint

end Diagnostic

end ScreenCompiler
