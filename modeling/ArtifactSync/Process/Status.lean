import ArtifactSync.Disk.Edit
import ArtifactSync.Environment
import ArtifactSync.Process.Signal

/-!
# Programs that have run

What a program leaves behind when it has run, and the answers that tools give.
-/

namespace ArtifactSync.Process

/-- How a program ended. -/
inductive Status where
  | exited (code : Nat)
  | killed (signal : Nat)
  deriving DecidableEq, Repr

/-- The text for how a program ended. -/
def Status.toString : Status → String
  | exited code => s!"exit status: {code}"
  | killed signal =>
    match signalNames.find? fun s => s.1 = signal with
    | some (_, name) => s!"signal: {signal} (SIG{name})"
    | none => s!"signal: {signal}"

instance : ToString Status := ⟨Status.toString⟩

/-- The status as a shell sees it in another program. -/
def Status.code : Status → Nat
  | exited code => code
  | killed signal => 128 + signal

/-- What a shell prints about a program that a signal has ended. -/
def Status.farewell? : Status → Option String
  | exited _ => none
  | killed signal => Process.farewell? signal

/-- One of the two streams that a program prints to. -/
inductive Stream where
  | out
  | err
  deriving DecidableEq, Repr

/-- What a program has done: how it ended, what it printed, piece by piece with the stream of each,
the input it left unread, and the disk as it is now. -/
structure Ran where
  status : Status
  printed : List (Stream × List UInt8)
  rest : List UInt8
  disk : Disk

/-- All that went to a stream, of what was printed piece by piece. -/
def printedOn (stream : Stream) (printed : List (Stream × List UInt8)) : List UInt8 :=
  (printed.filter fun p => p.1 = stream).flatMap Prod.snd

/-- All that a program printed to a stream. -/
def Ran.on (ran : Ran) (stream : Stream) : List UInt8 :=
  printedOn stream ran.printed

/-- What a tool works with: the word that named it and those behind it, its input, whether that is a
file in which a place can be kept, its variables, which are bytes as words are, the disk, and the
signals that do nothing to it. -/
structure Call where
  name : Word
  args : List Word
  input : List UInt8
  isFile : Bool
  env : Environment
  disk : Disk
  ignored : List Nat

/-- The bytes of a message, in which words stand as they are. -/
def Word.bytesOf (s : String) : List UInt8 :=
  Word.bytes s.toList

/-- The text of an error of the operating system as programs print it, without its number. -/
def reason (e : Errno) : String :=
  String.ofList (e.toString.toList.takeWhile (· ≠ '(')).dropLast

namespace Call

/-- A tool ends with a code and has printed pieces; its input is used up. -/
def ends (c : Call) (printed : List (Stream × List UInt8)) (code : Nat) : Ran :=
  ⟨.exited code, printed, [], c.disk⟩

/-- A tool ends with a code and has printed bytes; its input is used up. -/
def prints (c : Call) (out : List UInt8) (code : Nat) : Ran :=
  c.ends [(.out, out)] code

/-- A tool ends well and has printed a text. It does not look at its input. -/
def answers (c : Call) (text : List Char) : Ran :=
  { c.prints (Word.bytes text) 0 with rest := c.input }

/-- The piece that a complaint is: the name of the tool and a message. -/
def complaint (c : Call) (message : String) : Stream × List UInt8 :=
  (.err, Word.bytesOf (String.ofList c.name ++ ": " ++ message ++ "\n"))

/-- A tool ends with a code and has printed only a complaint. Its input stays. -/
def complains (c : Call) (message : String) (code : Nat) : Ran :=
  { c.ends [c.complaint message] code with rest := c.input }

end Call

end ArtifactSync.Process
