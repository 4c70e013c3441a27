import Interop.Worker.Format
import Interop.Worker.Start
/-!
A small operating system: the directories that are there, and what a handful of programs write and
how they end. It stands in for the system that workers and package managers run on.
-/

set_option autoImplicit false

namespace Interop.Worker

/-! ### Files -/

/-- Where the files of the system are looked up from. -/
structure Path where
  isAbsolute : Bool
  parts : List String
  /-- Whether a separator or a point ends it, so that only a directory will do. -/
  needsDirectory : Bool

def pathParts (text : String) : List String :=
  ((text.toList.splitOn '/').map String.ofList)

/-- The path that a text stands for; an empty text is none. -/
def Path.ofText? (text : String) : Option Path :=
  let parts := pathParts text
  if text.isEmpty || text.toList.contains '\x00' then none
  else
    some
      { isAbsolute := text.toList.head? == some '/'
        parts := parts.filter fun part => part ≠ "" && part ≠ "."
        needsDirectory := parts.getLast?.any fun part => part == "" || part == "." }

/-- A path taken relative to a directory, as text. An absolute path stands for itself. -/
def joinPath (directory name : String) : String :=
  if name.toList.head? == some '/' then name
  else if directory.isEmpty || directory.toList.getLast? == some '/' then directory ++ name
  else directory ++ "/" ++ name

/-- The directories that are there, each parent with the names in it. -/
def directoryNames : List (List String × List String) :=
  [([], ["bin", "boot", "dev", "etc", "home", "lib", "media", "mnt", "opt", "proc", "root", "run",
      "sbin", "srv", "sys", "tmp", "usr", "var"]),
    (["usr"], ["bin", "games", "include", "lib", "libexec", "local", "sbin", "share", "src"]),
    (["usr", "local"], ["bin", "etc", "games", "include", "lib", "sbin", "share", "src"]),
    (["usr", "share"], ["doc", "man"]),
    (["var"], ["backups", "cache", "lib", "local", "log", "mail", "opt", "spool", "tmp"]),
    (["var", "lib"], ["dpkg"]),
    (["etc"], ["alternatives", "apt", "default", "init.d", "opt", "pam.d", "profile.d", "security",
      "skel"]),
    (["dev"], ["pts", "shm"])]

/-- The directories that are there. -/
def directories : List (List String) :=
  directoryNames.flatMap fun (parent, names) => names.map fun name => parent ++ [name]

/-- The directories that stand for others. -/
def links : List (List String × List String) :=
  [(["bin"], ["usr", "bin"]), (["sbin"], ["usr", "sbin"]), (["lib"], ["usr", "lib"])]

/-- The files that are there, each directory with the names in it. -/
def fileNames : List (List String × List String) :=
  [(["dev"], ["full", "null", "random", "tty", "urandom", "zero"]),
    (["etc"], ["group", "gshadow", "hostname", "hosts", "nsswitch.conf", "passwd", "profile",
      "resolv.conf", "shadow"]),
    (["proc"], ["cpuinfo", "filesystems", "loadavg", "meminfo", "mounts", "stat", "uptime",
      "version"]),
    (["usr", "bin"], ["[", "awk", "basename", "bash", "cat", "chmod", "chown", "cp", "cut", "date",
      "dd", "df", "dirname", "du", "echo", "env", "expr", "false", "find", "grep", "gzip", "head",
      "id", "ln", "ls", "mkdir", "mktemp", "mv", "printf", "pwd", "readlink", "realpath", "rm",
      "rmdir", "sed", "sh", "sleep", "sort", "stat", "tail", "tar", "tee", "test", "touch", "tr",
      "true", "uname", "uniq", "wc", "whoami", "xargs", "yes"])]

/-- Whether a file of a name stands in a directory. -/
def isFile (directory : List String) (name : String) : Bool :=
  fileNames.any fun (place, names) => place == directory && names.contains name

/-- What stands at a place. -/
inductive Place
  | directory (place : List String)
  | file (directory : List String) (name : String)

/-- What is found on the way down from a directory. Nothing is known of the directory that relative
paths start from but that it is there; its place is told as `none`. -/
def walk : Option (List String) → List String → Option Place
  | place, [] => some (.directory (place.getD []))
  | none, ".." :: rest => walk none rest
  | none, _ :: _ => none
  | some place, ".." :: rest => walk (some place.dropLast) rest
  | some place, [name] =>
    if directories.contains (place ++ [name]) then some (.directory (place ++ [name]))
    else if isFile place name then some (.file place name)
    else none
  | some place, name :: rest =>
    if directories.contains (place ++ [name]) then
      walk (some ((links.lookup (place ++ [name])).getD (place ++ [name]))) rest
    else none

def Path.place? (path : Path) : Option Place :=
  match walk (if path.isAbsolute then some [] else none) path.parts with
  | some (.file directory name) =>
    if path.needsDirectory then none else some (.file directory name)
  | place => place

def placeAt? (text : String) : Option Place := (Path.ofText? text).bind Path.place?

def pathExists (text : String) : Bool := (placeAt? text).isSome

/-- Whether the text of a path leads to a file. -/
def namesFile (text : String) : Bool :=
  match placeAt? text with
  | some (.file ..) => true
  | _ => false

/-- Whether the text of a path leads to a file that is no device. -/
def namesPlainFile (text : String) : Bool :=
  match placeAt? text with
  | some (.file directory _) => directory ≠ ["dev"]
  | _ => false

/-- Whether the text of a path leads to a directory. -/
def namesDirectory (text : String) : Bool :=
  match placeAt? text with
  | some (.directory _) => true
  | _ => false

/-! ### Programs -/

/-- How a process ends. -/
inductive ProcessEnd
  | exited (code : Nat)
  /-- By a signal. -/
  | signalled
  /-- Not by itself. -/
  | running
  deriving DecidableEq

/-- What a process writes and how it ends. -/
structure Execution where
  output : Output
  ending : ProcessEnd

def Execution.exits (code : Nat) (bytes : List UInt8 := []) : Execution :=
  ⟨⟨bytes, .closed⟩, .exited code⟩

/-- A byte written with printable characters of ASCII; tabs and line feeds stand as they are. -/
def visibleByte (byte : UInt8) : List UInt8 :=
  let shown (code : Nat) : List UInt8 :=
    if code < 0x20 then [0x5E, UInt8.ofNat (code + 0x40)]
    else if code = 0x7F then [0x5E, 0x3F]
    else [UInt8.ofNat code]
  if byte = 0x09 ∨ byte = lineFeed then [byte]
  else if byte.toNat < 0x80 then shown byte.toNat
  else bytesOf "M-" ++ shown (byte.toNat - 0x80)

/-- A single line without tabs as `cat` copies it under its switches. -/
def copyLine (switches line : List UInt8) : List UInt8 :=
  let has (letters : String) : Bool := switches.any (bytesOf letters).contains
  (if has "nb" && !line.isEmpty then bytesOf "     1\t" else []) ++
    if has "veAt" then line.flatMap visibleByte else line

/-- Copies its input, which is a single line without tabs, or files without content. -/
def runCat (args : List String) (input : List UInt8) : Execution :=
  let isSwitch (arg : String) : Bool := arg.startsWith "-" && arg ≠ "-"
  let switches := (args.takeWhile (· ≠ "--")).filter isSwitch
  let letters := switches.flatMap fun arg => (bytesOf arg).drop 1
  let words := (args.takeWhile (· ≠ "--")).filter (!isSwitch ·) ++
    (args.dropWhile (· ≠ "--")).drop 1
  if !letters.all (bytesOf "AbeEnstTuv").contains then .exits 1
  else
    match words with
    | [] => .exits 0 (copyLine letters input)
    | ["-"] => .exits 0 (copyLine letters input)
    | words => .exits (if words.all namesFile then 0 else 1)

/-- Whether an argument is made of switches of `echo`. -/
def isEchoSwitch (arg : String) : Bool :=
  match arg.toList with
  | '-' :: c :: rest => (c :: rest).all fun c => c == 'n' || c == 'e' || c == 'E'
  | _ => false

/-- Writes its arguments on a line. -/
def runEcho (args : List String) : Execution :=
  let switches := args.takeWhile isEchoSwitch
  let isBare := switches.any fun arg => arg.toList.contains 'n'
  let line := " ".intercalate (args.dropWhile isEchoSwitch)
  .exits 0 (bytesOf line ++ if isBare then [] else [lineFeed])

/-- Writes its arguments on endless lines. -/
def runYes (args : List String) : Execution :=
  let endless (line : String) : Execution :=
    ⟨⟨bytesOf line ++ [lineFeed] ++ bytesOf line ++ [lineFeed], .pending⟩, .running⟩
  match args with
  | [] => endless "y"
  | "--" :: _ => endless (" ".intercalate (if args.length = 1 then ["y"] else args.drop 1))
  | first :: _ =>
    match first.toList with
    | '-' :: _ :: _ => .exits 1
    | _ => endless (" ".intercalate args)

/-- Writes a format. -/
def runFormat (args : List String) : Execution :=
  match if args.head? = some "--" then args.drop 1 else args with
  | [] => .exits 1
  | format :: _ =>
    let (bytes, code) := Format.write format.toList
    .exits code bytes

/-! ### Tests and commands -/

/-- Whether arguments state a condition that holds; no answer if they state none. -/
def conditionHolds? : List String → Option Bool
  | [] => some false
  | [text] => some (text ≠ "")
  | ["!", text] => some (text = "")
  | ["-n", text] => some (text ≠ "")
  | ["-z", text] => some (text = "")
  | ["-e", path] => some (pathExists path)
  | ["-d", path] => some (namesDirectory path)
  | ["-f", path] => some (namesPlainFile path)
  | [a, "=", b] => some (a = b)
  | [a, "==", b] => some (a = b)
  | [a, "!=", b] => some (a ≠ b)
  | "!" :: rest => (conditionHolds? rest).map not
  | _ => none

/-- Exits by a condition. -/
def runTest (args : List String) : Execution :=
  match conditionHolds? args with
  | some true => .exits 0
  | some false => .exits 1
  | none => .exits 2

def fields (text : String) : List String :=
  ((text.toList.splitBy fun a b => Json.isSpace a == Json.isSpace b).filter
    fun field => !field.all Json.isSpace).map String.ofList

/-- The words of a command line in which `$0` stands for a text. -/
def expandWords (name : String) (script : String) : List String :=
  (fields script).flatMap fun word =>
    if word = "$0" then fields name
    else if word = "\"$0\"" then [name]
    else [word]

/-- Exits with the code that a word stands for. -/
def exitWith (word : String) : Execution :=
  match digitsValue? word.toList with
  | some code => .exits (if code < Nat.pow 2 31 then code % 256 else 2)
  | none => .exits 2

def runScript (words : List String) : Execution :=
  match words with
  | [] => .exits 0
  | ["exit"] => .exits 0
  | "exit" :: word :: _ => exitWith word
  | "true" :: _ => .exits 0
  | ":" :: _ => .exits 0
  | "false" :: _ => .exits 1
  | "test" :: args => runTest args
  | "kill" :: _ => ⟨⟨[], .closed⟩, .signalled⟩
  | _ => .exits 127

def runShell : List String → Execution
  | ["-c"] => .exits 2
  | ["-c", script] => runScript (expandWords "sh" script)
  | "-c" :: script :: name :: _ => runScript (expandWords name script)
  | _ => .exits 127

/-! ### Starting programs -/

/-- The name of a program in the directory that all programs are in. A word without a separator is
the name itself, any other is a path to the program. -/
def programName? (program : String) : Option String :=
  if program.toList.contains '/' then
    match placeAt? program with
    | some (.file ["usr", "bin"] name) => some name
    | _ => none
  else some program

/-- Runs a program on its input; there may be no such program, and no word may hold a NUL. -/
def execute? (program : String) (args : List String) (input : List UInt8) : Option Execution :=
  if (program :: args).any fun word => word.toList.contains '\x00' then none
  else
  match programName? program with
  | some "cat" => some (runCat args input)
  | some "echo" => some (runEcho args)
  | some "printf" => some (runFormat args)
  | some "true" => some (.exits 0)
  | some "false" => some (.exits 1)
  | some "yes" => some (runYes args)
  | some "sh" => some (runShell args)
  | some "test" => some (runTest args)
  | _ => none

end Interop.Worker
