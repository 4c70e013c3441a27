import Interop.Failure
import Interop.Script.Token
/-!
Why an operation of the foreign runtime is refused. The runtime raises an exception for each of its
own faults; a stub that lacks an answer gives a type error of the host.
-/

set_option autoImplicit false

namespace Interop

/-- Why an operation of the foreign runtime is refused. -/
inductive Fault
  -- attributes, items and other primitive operations of one object
  | noAttribute (typeName name : String)
  | noPrimitive (typeName : String)
  | notCallable (typeName : String)
  | keywordsRefused (function : String)
  | notIterator (typeName : String)
  | unhashable (typeName : String)
  | notSubscriptable (typeName : String)
  | noLength (typeName : String)
  | indexOutOfRange (sequence : String)
  | byteIndexOutOfRange
  | invalidIndex (sequence : String)
  /-- No entry for a key, which is given as the error shows it. -/
  | noEntry (key : String)
  | zeroStep
  | sequenceTooLong
  | slicePosition
  /-- The object is gone. -/
  | released
  -- builtins and methods of containers
  | argumentCount (function : String) (given : Nat)
  | sliceArguments (given : Nat)
  | sliceBound
  | notIterable (typeName : String)
  | getWithoutKey
  | appendWithoutItem
  | popFromEmpty
  | initializerArguments
  | foreignLength
  | foreignIteration
  | foreignReceiver
  -- numbers
  | integerTooLarge (value : Int)
  | integerOverflow
  | negation
  | operands (operator : Char) (left right : String)
  | foreignOperand
  -- names
  | undefinedName (name : String)
  | missingModule (name : String)
  | assignment (target : String)
  | source (fault : Script.SourceFault)
  -- stubs
  | stubNotCallable
  | stubAttribute (name : String)
  | stubIndex
  | stubKey
  | scripted (kind message : String)
  | stubPrimitive
  | stubText
  | stubHash
  deriving DecidableEq

namespace Fault

/-- What a fault is reported as. -/
inductive Report
  /-- An exception of a builtin type. -/
  | exception (kind message : String)
  /-- A type error of the host. -/
  | typeError (message : String)
  deriving DecidableEq

def report : Fault → Report
  | noAttribute typeName name =>
    .exception "AttributeError" ("'" ++ typeName ++ "' object has no attribute '" ++ name ++ "'")
  | noPrimitive typeName =>
    .exception "TypeError" ("'" ++ typeName ++ "' object has no primitive value")
  | notCallable typeName => .exception "TypeError" ("'" ++ typeName ++ "' object is not callable")
  | keywordsRefused function =>
    .exception "TypeError" (function ++ "() takes no keyword arguments")
  | notIterator typeName =>
    .exception "TypeError" ("'" ++ typeName ++ "' object is not an iterator")
  | unhashable typeName => .exception "TypeError" ("unhashable type: '" ++ typeName ++ "'")
  | notSubscriptable typeName =>
    .exception "TypeError" ("'" ++ typeName ++ "' object is not subscriptable")
  | noLength typeName => .exception "TypeError" ("object of type '" ++ typeName ++ "' has no len()")
  | indexOutOfRange sequence => .exception "IndexError" (sequence ++ " index out of range")
  | byteIndexOutOfRange => .exception "IndexError" "index out of range"
  | invalidIndex sequence =>
    .exception "TypeError" (sequence ++ " indices must be integers or slices")
  | noEntry key => .exception "KeyError" key
  | zeroStep => .exception "ValueError" "slice step cannot be zero"
  | sequenceTooLong => .exception "OverflowError" "sequence too long"
  | slicePosition => .exception "IndexError" "slice index out of range"
  | released => .exception "ReferenceError" "object was released"
  | argumentCount function given =>
    .exception "TypeError"
      (function ++ "() takes exactly one argument (" ++ toString given ++ " given)")
  | sliceArguments given =>
    .exception "TypeError" ("slice expected 1 to 3 arguments, got " ++ toString given)
  | sliceBound => .exception "TypeError" "slice indices must be integers or None"
  | notIterable typeName => .exception "TypeError" ("'" ++ typeName ++ "' object is not iterable")
  | getWithoutKey => .exception "TypeError" "get expected at least 1 argument"
  | appendWithoutItem =>
    .exception "TypeError" "append() takes exactly one argument (0 given)"
  | popFromEmpty => .exception "IndexError" "pop from empty list"
  | initializerArguments => .exception "TypeError" "object.__init__() takes no arguments"
  | foreignLength => .exception "TypeError" "object has no len()"
  | foreignIteration => .exception "TypeError" "object is not iterable"
  | foreignReceiver => .exception "TypeError" "cannot bind a method to a foreign object"
  | integerTooLarge value => .exception "OverflowError" ("int too large: " ++ toString value)
  | integerOverflow => .exception "OverflowError" "integer overflow"
  | negation => .exception "TypeError" "bad operand type for unary -"
  | operands operator left right =>
    .exception "TypeError" ("unsupported operand type(s) for " ++ String.singleton operator ++
      ": '" ++ left ++ "' and '" ++ right ++ "'")
  | foreignOperand => .exception "TypeError" "unsupported operand for foreign values"
  | undefinedName name => .exception "NameError" ("name '" ++ name ++ "' is not defined")
  | missingModule name => .exception "ModuleNotFoundError" ("No module named '" ++ name ++ "'")
  | assignment target => .exception "TypeError" ("assignment to " ++ target ++ " failed")
  | source fault => .exception fault.kind fault.message
  | stubNotCallable => .exception "TypeError" "stub is not callable"
  | stubAttribute name =>
    .exception "AttributeError" ("stub has no attribute '" ++ name ++ "'")
  | stubIndex => .exception "IndexError" "stub index out of range"
  | stubKey => .exception "KeyError" "stub key"
  | scripted kind message => .exception kind message
  | stubPrimitive => .typeError "stub has no primitive"
  | stubText => .typeError "stub has no str"
  | stubHash => .typeError "stub has no hash"

end Fault
end Interop
