import Interop.Handle
/-!
How starting a worker or installing a package fails.
-/

set_option autoImplicit false

namespace Interop.Worker

/-- How a worker breaks the start protocol. -/
inductive ProtocolFault
  /-- It ended its output before telling a status. -/
  | silent
  /-- Its first line is no number. -/
  | notNumeric (line : String)
  /-- A fault stated in words. -/
  | stated (message : String)
  deriving DecidableEq

def ProtocolFault.message : ProtocolFault → String
  | silent => "worker exited before signalling"
  | notNumeric line => "expected a numeric status, got " ++ Text.quoted line
  | stated message => message

/-- Why settings cannot be used. -/
inductive SettingsFault
  | noPackageManager
  /-- A fault stated in words. -/
  | stated (message : String)
  deriving DecidableEq

def SettingsFault.message : SettingsFault → String
  | noPackageManager => "package_manager is empty"
  | stated message => message

/-- Why a worker was not started or a package not installed. -/
inductive Failure
  /-- The operating system reports an error, given in its words. -/
  | io (cause : String)
  /-- The payload cannot be written as JSON, for a reason given in words. -/
  | payload (cause : String)
  | protocol (fault : ProtocolFault)
  /-- The worker told another status than the one expected. -/
  | signal (expected actual : Int64)
  /-- The package manager failed with an exit code, or was ended by a signal. -/
  | install (package : String) (code : Option Int)
  | settings (fault : SettingsFault)
  deriving DecidableEq

namespace Failure

def message : Failure → String
  | io cause => "worker I/O failed: " ++ cause
  | payload cause => "cannot serialize worker payload: " ++ cause
  | protocol fault => "worker protocol error: " ++ fault.message
  | signal expected actual =>
    "worker signalled " ++ toString actual.toInt ++ ", expected " ++ toString expected.toInt
  | install package (some code) =>
    "installing " ++ package ++ " failed with exit code " ++ toString code
  | install package none => "installing " ++ package ++ " was terminated by a signal"
  | settings fault => "invalid launch options: " ++ fault.message

/-- The words of the error behind the failure, if there is one. -/
def cause? : Failure → Option String
  | io cause => some cause
  | payload cause => some cause
  | _ => none

def kindName : Failure → String
  | io _ => "io"
  | payload _ => "payload"
  | protocol _ => "protocol"
  | signal _ _ => "signal"
  | install _ _ => "install"
  | settings _ => "config"

end Failure
end Interop.Worker
