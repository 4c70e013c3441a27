import Interop.Call
/-!
Host classes: methods of the host that are installed on a new foreign instance, where foreign code
sees them.
-/

set_option autoImplicit false

namespace Interop

variable {κ σ : Type}

/-- A named list of methods. -/
structure HostClass (κ : Type) where
  name : String
  methods : List (Method κ) := []

/-- Binds a method to a new instance and installs it there. -/
def HostClass.install (cls : HostClass κ) (instanceProxy : Proxy κ) (method : Method κ) :
    Program κ σ Unit := do
  let bound ← Program.bindMethod method.toReceiverCallback instanceProxy.handle
  let status ← instanceProxy.handle.setAttr method.name (.handle bound)
  if status.isOk then return ()
  else Program.fault (.methodNotInstalled method.name cls.name instanceProxy.typeInfo)

/-- Makes a new instance of a foreign class, initializes it without arguments and installs the
methods of a host class on it. A result that is no proxy is left as it is. -/
def Proxy.construct (p : Proxy κ) (cls : HostClass κ) : Program κ σ (Object κ) := do
  let object ← Bridge.wrap (← p.handle.invoke [])
  match object with
  | .proxy made =>
    let _ ← made.callMethod "__init__" []
    cls.methods.forM (cls.install made)
    return object
  | _ => return object

end Interop
