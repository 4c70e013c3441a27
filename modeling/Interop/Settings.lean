/-!
The settings of a bridge.
-/

set_option autoImplicit false

namespace Interop

/-- The settings of a bridge. -/
structure Settings where
  /-- The value at index `i` of a template is bound under this text followed by `i`. -/
  interpolationPrefix : String := "__conduit_arg_"
  /-- Whether evaluated sources lose their common indentation. -/
  dedent : Bool := true
  deriving DecidableEq

/-- The name under which the value at an index of a template is bound. -/
def Settings.interpolationName (settings : Settings) (index : Nat) : String :=
  settings.interpolationPrefix ++ toString index

end Interop
