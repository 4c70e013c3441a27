import Interop.Text.Blank
import Interop.Text.Utf8
import Interop.Worker.Failure
/-!
The start protocol of workers.

A worker is sent its payload and then has to tell a status on the first line of its output. It is
ready if the status is the one expected; in every other case it is killed and waited for. A worker
that closes its input early is still judged by its status. What the operating system answers is
given to the protocol, which decides by it alone.
-/

set_option autoImplicit false

namespace Interop.Worker

/-! ### What the operating system answers -/

/-- How writing the payload went. -/
inductive Writing
  | written
  /-- The worker closed its input before it had read all. -/
  | brokenPipe
  | failed (cause : String)
  deriving DecidableEq

/-- How the output of a process ends. -/
inductive StreamEnd
  | closed
  /-- Reading fails there. -/
  | failed (cause : String)
  /-- The process goes on and may write more. -/
  | pending
  deriving DecidableEq

/-- The output of a process as it can be read: bytes, and what comes behind them. -/
structure Output where
  bytes : List UInt8
  ending : StreamEnd := .closed
  deriving DecidableEq

/-! ### Reading a line -/

def lineFeed : UInt8 := 0x0A

/-- The bytes before the first line feed, and those behind it if there is one. -/
def splitLine : List UInt8 → List UInt8 × Option (List UInt8)
  | [] => ([], none)
  | b :: rest =>
    if b = lineFeed then ([], some rest)
    else
      let (line, after) := splitLine rest
      (b :: line, after)

/-- A line without a line feed, a line feed and a rest are split into the line and the rest. -/
theorem splitLine_append {line : List UInt8} (h : lineFeed ∉ line) (rest : List UInt8) :
    splitLine (line ++ lineFeed :: rest) = (line, some rest) := by
  induction line with
  | nil => simp [splitLine]
  | cons b line ih =>
    obtain ⟨different, h⟩ := not_or.1 (mt List.mem_cons.2 h)
    rw [List.cons_append, splitLine, if_neg (Ne.symm different), ih h]

/-- Bytes without a line feed are one line, with nothing behind it. -/
theorem splitLine_of_not_mem {bytes : List UInt8} (h : lineFeed ∉ bytes) :
    splitLine bytes = (bytes, none) := by
  induction bytes with
  | nil => rfl
  | cons b rest ih =>
    obtain ⟨different, h⟩ := not_or.1 (mt List.mem_cons.2 h)
    rw [splitLine, if_neg (Ne.symm different), ih h]

/-- What reading a line gives. -/
inductive LineRead
  /-- A line without its line feed, and the output behind it. -/
  | line (bytes : List UInt8) (rest : Output)
  /-- The output has ended. -/
  | nothing
  | failed (cause : String)
  /-- There is no line yet. -/
  | blocked
  deriving DecidableEq

/-- Reads a line, up to a line feed or the end of the output. -/
def Output.readLine (output : Output) : LineRead :=
  match splitLine output.bytes with
  | (line, some rest) => .line line { output with bytes := rest }
  | (line, none) =>
    match output.ending with
    | .closed => if line.isEmpty then .nothing else .line line { output with bytes := [] }
    | .failed cause => .failed cause
    | .pending => .blocked

/-! ### The status -/

/-- The number that decimal digits stand for; there has to be one. -/
def digitsValue? : List Char → Option Nat
  | [] => none
  | digits =>
    if digits.all Char.isDigit then
      some (digits.foldl (fun value digit => 10 * value + (digit.toNat - '0'.toNat)) 0)
    else none

/-- The status that a text stands for: decimal digits, perhaps with a sign, for a signed word. -/
def readStatus? : List Char → Option Int64
  | '-' :: digits => (digitsValue? digits).bind fun value => word? (-(value : Int))
  | '+' :: digits => (digitsValue? digits).bind fun value => word? value
  | digits => (digitsValue? digits).bind fun value => word? value

/-! ### The protocol -/

/-- A worker that is ready, with the output that has not been read. -/
structure Ready where
  unread : Output
  deriving DecidableEq

/-- What is done to the process of a worker. -/
inductive ProcessAction
  | kill
  | wait
  deriving DecidableEq

/-- The end of a start: its result, and what was done to the process on the way. -/
structure Start where
  result : Except Failure Ready
  actions : List ProcessAction

/-- The worker is ready, and nothing was done to it. -/
def Start.ready (unread : Output) : Start := ⟨.ok ⟨unread⟩, []⟩

/-- The worker was ended and its exit status collected, for a failure. -/
def Start.reaped (failure : Failure) : Start := ⟨.error failure, [.kill, .wait]⟩

/-- Judges a worker by the first line of its output. -/
def judgeLine (expected : Int64) (line : List UInt8) (rest : Output) : Start :=
  match Text.decode? line with
  | none => .reaped (.io "stream did not contain valid UTF-8")
  | some text =>
    let trimmed := Text.trim text.toList
    match readStatus? trimmed with
    | none => .reaped (.protocol (.notNumeric (String.ofList trimmed)))
    | some actual => if actual = expected then .ready rest else .reaped (.signal expected actual)

/-- Starts a worker that was sent its payload. There is no end of it as long as there is no line. -/
def start (expected : Int64) (writing : Writing) (output : Output) : Option Start :=
  match writing with
  | .failed cause => some (.reaped (.io cause))
  | .written | .brokenPipe =>
    match output.readLine with
    | .line line rest => some (judgeLine expected line rest)
    | .nothing => some (.reaped (.protocol .silent))
    | .failed cause => some (.reaped (.io cause))
    | .blocked => none

end Interop.Worker
