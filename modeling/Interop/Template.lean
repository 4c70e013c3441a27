import Interop.Bridge
import Interop.Text.Lines
/-!
Evaluation of source texts. A template is a source with values between its text parts: each value
is bound under a name of its own in a private copy of the shared namespace, and the name stands in
the text where the value was.
-/

set_option autoImplicit false

namespace Interop

variable {κ σ : Type}

/-- A source to be evaluated. -/
inductive Source (κ : Type)
  /-- Runs in the shared namespace. -/
  | plain (text : String)
  /-- Text parts with one value between each two. -/
  | template (parts : List String) (values : List (Arg κ))

/-- The lines that are not blank, without the indentation that they have in common. -/
def dedent (text : String) : String :=
  let kept := (Text.lines text.toList).filter fun line => !Text.isBlankLine line
  let common := ((kept.map Text.indentation).min?).getD 0
  String.ofList (Text.joinLines (kept.map (·.drop common)))

/-- Binds the values in a namespace, from a given index on, and gives the text in which the names
stand for them. -/
def bindValues (settings : Settings) (shadow : Handle) :
    Nat → List String → List (Arg κ) → Program κ σ String
  | index, part :: parts, value :: values => do
    let name := settings.interpolationName index
    let status ← shadow.setItem (.string name) value
    if status.isOk then
      return part ++ name ++ (← bindValues settings shadow (index + 1) parts values)
    else
      Program.fault (.valueNotBound name)
  | _, parts, _ => return String.join parts

/-- The text to run for a source and the namespace to run it in. -/
def Source.resolve (settings : Settings) (globals : Handle) :
    Source κ → Program κ σ (String × Handle)
  | .plain text => return (text, globals)
  | .template [text] [] => return (text, globals)
  | .template parts values => do
    if parts.length ≠ values.length + 1 then
      Program.fault (.templateShape parts.length values.length)
    let copy ← globals.getAttr "copy"
    let shadow ← copy.invoke []
    return (← bindValues settings shadow 0 parts values, shadow)

def Bridge.evaluate (source : Source κ) : Program κ σ (Object κ) := do
  let globals ← Program.globals
  let settings ← Program.settings
  let (text, scope) ← source.resolve settings globals
  let text := if settings.dedent then Interop.dedent text else text
  wrap (← Program.exec text scope scope)

end Interop
