import Interop.Handle
/-!
How an operation of the bridge fails: either the foreign side raised an exception, whose handles are
kept, or the host side found a type error.
-/

set_option autoImplicit false

namespace Interop

/-- An exception raised on the foreign side, as it was reported. -/
structure ForeignException where
  excType : Handle
  value : Handle
  traceback : Option Handle
  /-- Type and message as one text. -/
  message : String
  deriving DecidableEq

/-- The causes of type errors on the host side. -/
inductive TypeFault
  /-- An attribute of a type object is not a text. -/
  | typeAttribute (name : String) (found : Primitive)
  | notCallable (typeName : String)
  | missingReceiver (method : String)
  | receiverNotObject (method : String)
  | keywordsNotObject (found : String)
  /-- A template needs one text part more than it has values. -/
  | templateShape (parts values : Nat)
  | valueNotBound (name : String)
  | noContextManager (typeName : String)
  | scopeCallback (typeName : String)
  | negativeLength (length : Int64)
  | lengthNotInteger (found : Primitive)
  | notIterable (typeName : String)
  | methodNotInstalled (method className : String) (info : TypeInfo)
  | missingArgument (capability : String)
  | nameNotString (capability typeName : String)
  | boundNotInteger (capability typeName : String)
  /-- A cause that the host's own code states in words. -/
  | stated (message : String)
  deriving DecidableEq

def TypeFault.message : TypeFault → String
  | typeAttribute name found =>
    "type attribute " ++ name ++ " is not a string: " ++ found.describe
  | notCallable typeName => "'" ++ typeName ++ "' object is not callable"
  | missingReceiver method => method ++ "() missing its receiver"
  | receiverNotObject method => "receiver of " ++ method ++ " is not an object"
  | keywordsNotObject found => "kwargs expects an object, got " ++ found
  | templateShape parts values =>
    "template has " ++ toString parts ++ " text parts for " ++ toString values ++ " values"
  | valueNotBound name => "cannot bind interpolated value " ++ name
  | noContextManager typeName =>
    "'" ++ typeName ++ "' object does not support the context manager protocol"
  | scopeCallback typeName => "scope callback must be callable, got " ++ typeName
  | negativeLength length => "len() returned negative length " ++ toString length.toInt
  | lengthNotInteger found => "len() returned a non-integer: " ++ found.describe
  | notIterable typeName => "'" ++ typeName ++ "' object is neither iterable nor a sequence"
  | methodNotInstalled method className info =>
    "cannot install method '" ++ method ++ "' of " ++ className ++ " on " ++ info.display
  | missingArgument capability => capability ++ " missing a required argument"
  | nameNotString capability typeName => capability ++ " expects a str name, got " ++ typeName
  | boundNotInteger capability typeName => capability ++ " expects int or None, got " ++ typeName
  | stated message => message

/-- Why an operation of the bridge failed. -/
inductive Error
  | foreign (exception : ForeignException)
  | type (fault : TypeFault)
  deriving DecidableEq

namespace Error

def message : Error → String
  | foreign exception => exception.message
  | type fault => "TypeError: " ++ fault.message

def isTypeError : Error → Bool
  | foreign _ => false
  | type _ => true

def foreign? : Error → Option ForeignException
  | foreign exception => some exception
  | type _ => none

end Error
end Interop
