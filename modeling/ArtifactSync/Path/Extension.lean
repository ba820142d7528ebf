import ArtifactSync.Path.Basic

/-!
# Extensions

The extension of a file name is the text behind its last dot, unless that dot leads the name. A
replacement first cuts as many characters off the end of the path's text as the old extension has,
and then writes the new one behind the stem of whatever file name is left. With an ordinary name
this is the replacement one expects; a name such as `..civet` has none left after the cut and is
not changed further.
-/

namespace ArtifactSync.Path

/-- The stem and the extension of a file name. -/
def splitName (name : List Char) : List Char × Option (List Char) :=
  if name = ['.', '.'] then (name, none)
  else
    let behind := (name.reverse.takeWhile (· ≠ '.')).reverse
    let front := name.take (name.length - behind.length)
    if front.length ≤ 1 then (name, none) else (front.dropLast, some behind)

/-- The extension of the last component, if that is an ordinary name that has one. -/
def extension? (p : Path) : Option (List Char) :=
  p.fileName?.bind fun name => (splitName name).2

/-- Writes an extension behind the stem of the file name, and drops what stands behind the name. A
path without a file name is not changed. -/
def setExtension (p : Path) (extension : List Char) : Path :=
  match p.cutLast? with
  | none => p
  | some (front, name) =>
    if p.fileName?.isNone then p else ⟨front ++ (splitName name).1 ++ '.' :: extension⟩

/-- The path with its extension replaced. -/
def withExtension (p : Path) (extension : List Char) : Path :=
  match p.extension? with
  | none => p.setExtension extension
  | some old => setExtension ⟨p.chars.take (p.chars.length - old.length)⟩ extension

end ArtifactSync.Path
