import ArtifactSync.FileSystem.Basic

/-!
# Errors of the operating system

The errors that calls on a disk answer with, by their traditional names, and the text of each.
-/

namespace ArtifactSync

/-- An error of the operating system. -/
inductive Errno where
  /-- No such file or directory. -/
  | noEntry
  /-- Exec format error. -/
  | execFormat
  /-- Permission denied. -/
  | access
  /-- Device or resource busy. -/
  | busy
  /-- File exists. -/
  | exists
  /-- Not a directory. -/
  | notDirectory
  /-- Is a directory. -/
  | isDirectory
  /-- Invalid argument. -/
  | invalid
  /-- File name too long. -/
  | nameTooLong
  /-- Directory not empty. -/
  | notEmpty
  /-- Too many levels of symbolic links. -/
  | tooManyLinks
  /-- The path holds a NUL character, which no call accepts. -/
  | nulInPath
  deriving DecidableEq, Repr

namespace Errno

/-- The text and the number of an error. -/
def toString : Errno → String
  | noEntry => "No such file or directory (os error 2)"
  | execFormat => "Exec format error (os error 8)"
  | access => "Permission denied (os error 13)"
  | busy => "Device or resource busy (os error 16)"
  | «exists» => "File exists (os error 17)"
  | notDirectory => "Not a directory (os error 20)"
  | isDirectory => "Is a directory (os error 21)"
  | invalid => "Invalid argument (os error 22)"
  | nameTooLong => "File name too long (os error 36)"
  | notEmpty => "Directory not empty (os error 39)"
  | tooManyLinks => "Too many levels of symbolic links (os error 40)"
  | nulInPath => "file name contained an unexpected NUL byte"

instance : ToString Errno := ⟨toString⟩

/-- An error as the kinds that are told apart. -/
def toIo (e : Errno) : IoError :=
  match e with
  | noEntry => ⟨.notFound, e.toString⟩
  | access => ⟨.permissionDenied, e.toString⟩
  | _ => ⟨.other, e.toString⟩

end Errno

end ArtifactSync
