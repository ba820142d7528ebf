import ArtifactSync.Process.Octets

/-!
# Signals

The signals by which programs are ended, by their numbers: the names they have, which of them a
program survives that has made no arrangements, and what a shell says about one that did not.
-/

namespace ArtifactSync.Process

/-- The signals that have names of their own. -/
def signalNames : List (Nat × String) :=
  [(1, "HUP"), (2, "INT"), (3, "QUIT"), (4, "ILL"), (5, "TRAP"), (6, "ABRT"), (7, "BUS"),
    (8, "FPE"), (9, "KILL"), (10, "USR1"), (11, "SEGV"), (12, "USR2"), (13, "PIPE"), (14, "ALRM"),
    (15, "TERM"), (16, "STKFLT"), (17, "CHLD"), (18, "CONT"), (19, "STOP"), (20, "TSTP"),
    (21, "TTIN"), (22, "TTOU"), (23, "URG"), (24, "XCPU"), (25, "XFSZ"), (26, "VTALRM"),
    (27, "PROF"), (28, "WINCH"), (29, "IO"), (30, "PWR"), (31, "SYS")]

/-- The largest number of a signal. -/
def maxSignal : Nat := 64

/-- Whether a signal leaves a program running that has made no arrangements for it. -/
def isHarmless (signal : Nat) : Bool :=
  [0, 17, 18, 19, 20, 21, 22, 23, 28].contains signal

/-- The name that a shell has for a signal. The end of a shell counts as signal zero; a signal that
is for free use is named by its distance from the first or the last of them. -/
def signalName (signal : Nat) : String :=
  if signal = 0 then "EXIT"
  else if signal = 34 then "RTMIN"
  else if signal = 64 then "RTMAX"
  else if 34 < signal && signal < 50 then s!"RTMIN+{signal - 34}"
  else if 50 ≤ signal then s!"RTMAX-{64 - signal}"
  else match signalNames.find? fun s => s.1 = signal && signal ≠ 16 with
    | some (_, name) => name
    | none => toString signal

/-- The signal that a word names to a shell, by its number or, from a least one on, by its name in
capitals or small letters. -/
def signalOf? (least : Nat) (w : Word) : Option Nat :=
  let number := w.foldl (fun n c => n * 10 + (c.toNat - 48)) 0
  if w ≠ [] && w.all Char.isDigit && number ≤ maxSignal then some number
  else (List.range (maxSignal + 1)).find? fun n =>
    least ≤ n && (signalName n).toList = w.map Char.toUpper

/-- What a shell prints about a program that a signal has ended. -/
def farewell? (signal : Nat) : Option String :=
  let common := [(1, "Hangup"), (3, "Quit"), (4, "Illegal instruction"),
    (5, "Trace/breakpoint trap"), (6, "Aborted"), (7, "Bus error"), (8, "Floating point exception"),
    (9, "Killed"), (10, "User defined signal 1"), (11, "Segmentation fault"),
    (12, "User defined signal 2"), (14, "Alarm clock"), (15, "Terminated"), (16, "Stack fault"),
    (24, "CPU time limit exceeded"), (25, "File size limit exceeded"),
    (26, "Virtual timer expired"), (27, "Profiling timer expired"), (29, "I/O possible"),
    (30, "Power failure"), (31, "Bad system call")]
  if 34 ≤ signal then some s!"Real-time signal {signal - 34}"
  else if signal = 32 || signal = 33 then some s!"Unknown signal {signal}"
  else (common.find? fun t => t.1 = signal).map Prod.snd

end ArtifactSync.Process
