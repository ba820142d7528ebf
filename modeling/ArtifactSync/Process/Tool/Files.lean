import ArtifactSync.Process.Input

/-!
# Files and directories

The tools that take paths apart, look at files and change them.
-/

namespace ArtifactSync.Process

/-! ## Paths -/

/-- A word without the slashes at its end. -/
def withoutSlashes (w : Word) : Word :=
  Text.dropEndWhile (· == '/') w

/-- The last part of a path, without a suffix. -/
def lastPart (path suffix : Word) : Word :=
  let trimmed := withoutSlashes path
  let name := (trimmed.reverse.takeWhile (· ≠ '/')).reverse
  let name := if path ≠ [] && trimmed = [] then ['/'] else name
  if suffix ≠ [] && suffix.isSuffixOf name && suffix ≠ name then
    name.take (name.length - suffix.length)
  else name

/-- The last part of each path. -/
def basename (c : Call) : Ran :=
  let rules : OptionRules := ⟨"az", "s", [("multiple", 'a'), ("suffix", 's'), ("zero", 'z')], false⟩
  c.withOptions rules 1 fun o =>
    let ended := if o.has 'z' then Char.ofNat 0 else '\n'
    match o.words with
    | [] => c.refuses "missing operand" 1
    | path :: rest =>
      if o.has 'a' || o.has 's' then
        c.answers (o.words.flatMap fun w => lastPart w ((o.value? 's').getD []) ++ [ended])
      else match rest with
        | _ :: extra :: _ => c.refuses s!"extra operand {plainQuoted extra}" 1
        | suffix => c.answers (lastPart path (suffix.headD []) ++ [ended])

/-- What stands in front of the last part of each path. -/
def dirname (c : Call) : Ran :=
  let rules : OptionRules := ⟨"z", "", [("zero", 'z')], false⟩
  c.withOptions rules 1 fun o =>
    let front := fun (path : Word) =>
      let shown := withoutSlashes (Text.dropEndWhile (· ≠ '/') (withoutSlashes path))
      if shown ≠ [] then shown else if path.head? = some '/' then ['/'] else ['.']
    if o.words.isEmpty then c.refuses "missing operand" 1
    else c.answers (o.words.flatMap fun w => front w ++ ['\n'])

/-- The working directory. -/
def pwd (c : Call) : Ran :=
  let extra := c.args.any fun w => w.head? ≠ some '-'
  let complaints := if extra then [c.complaint "ignoring non-option arguments"] else []
  { c.ends (complaints ++ [(.out, Word.bytes (Word.ofText c.disk.cwdPath.chars ++ ['\n']))]) 0 with
    rest := c.input }

/-- The path without links to what a path leads to; the last name need not be there. -/
def settledPath (d : Disk) (w : Word) : Except Errno Path :=
  match d.resolve (Word.path w) true with
  | .error e => .error e
  | .ok (.node trail _) => .ok (Disk.pathOf (Disk.Trail.names trail))
  | .ok (.missing trail name) => .ok (Disk.pathOf (Disk.Trail.names trail ++ [name]))

/-- What links point to, or where they lead in the end. -/
def readlink (c : Call) : Ran :=
  let rules : OptionRules := ⟨"femnqsvz", "", [("canonicalize", 'f'), ("no-newline", 'n')], true⟩
  c.withOptions rules 1 fun o =>
    let shown := fun (w : Word) =>
      if o.has 'f' then (settledPath c.disk w).toOption.map Path.chars
      else if o.has 'e' then (c.disk.canonicalize (Word.path w)).toOption.map Path.chars
      else match c.disk.resolve (Word.path w) false with
        | .ok (.node _ (.link target)) => some target
        | _ => none
    let texts := o.words.map shown
    let ended := if o.has 'n' && texts.length = 1 then [] else ['\n']
    if o.words.isEmpty then c.refuses "missing operand" 1
    else
      let out := texts.flatMap fun t => match t with
        | some text => Word.bytes (Word.ofText text ++ ended)
        | none => []
      { c.prints out (if texts.all Option.isSome then 0 else 1) with rest := c.input }

/-- Where paths lead in the end. -/
def realpath (c : Call) : Ran :=
  let rules : OptionRules := ⟨"emqsz", "", [], true⟩
  c.withOptions rules 1 fun o =>
    let printed := o.words.map fun w =>
      let answer := if o.has 'e' then c.disk.canonicalize (Word.path w) else settledPath c.disk w
      match answer with
      | .ok path => (Stream.out, Word.bytes (Word.ofText path.chars ++ ['\n']))
      | .error e => if o.has 'q' then (.err, []) else c.complaint (plainComplaint w e)
    let failed := printed.any fun p => p.1 = .err
    if o.words.isEmpty then c.refuses "missing operand" 1
    else { c.ends printed (if failed then 1 else 0) with rest := c.input }

/-! ## Listing -/

/-- The names that listing a directory shows. -/
def listedNames (o : Options) (node : Node) : List (Word × Node) :=
  let names := node.entries.map fun e => (Word.ofText e.1, e.2)
  let own := [(['.'], node), (['.', '.'], node)]
  let all := if o.has 'a' then own ++ names
    else if o.has 'A' then names
    else names.filter fun n => n.1.head? ≠ some '.'
  if o.has 'r' then all.reverse else all

/-- A name with a sign for what it is, if asked for. -/
def shownName (o : Options) (name : Word) (node : Node) : Word :=
  let quoted := if o.has 'Q' then '"' :: name ++ ['"'] else name
  let sign := if node.isDir && (o.has 'F' || o.has 'p') then ['/']
    else if !o.has 'F' then []
    else match node with
      | .link _ => ['@']
      | node => if node.isFile && node.mode &&& 0o111 ≠ 0 then ['*'] else []
  quoted ++ sign

/-- Names in lines, or in one with commas between them. -/
def nameLines (o : Options) (names : List Word) : List UInt8 :=
  if names.isEmpty then []
  else if o.has 'm' then Word.bytes (List.intercalate [',', ' '] names ++ ['\n'])
  else Word.bytes (names.flatMap fun n => n ++ ['\n'])

mutual

/-- The sections that listing a directory makes, with a title each; those below it too if asked
for. -/
def sectionsOf (o : Options) (title : Word) : Node → List (Word × Option (List Word))
  | .dir entries mode =>
    let node := Node.dir entries mode
    if !node.mayRead then [(title, none)]
    else
      let names := (listedNames o node).map fun x => shownName o x.1 x.2
      let front := if title.getLast? = some '/' then title else title ++ ['/']
      let below := sectionsBelow o front entries
      let inside := if o.has 'r' then below.reverse else below
      (title, some names) :: (if o.has 'R' then inside else [])
  | _ => []

/-- The sections of the directories among some entries. -/
def sectionsBelow (o : Options) (front : Word) :
    List (Name × Node) → List (Word × Option (List Word))
  | [] => []
  | (name, node) :: rest =>
    let hidden := name.head? = some '.' && !o.has 'a' && !o.has 'A'
    (if hidden then [] else sectionsOf o (front ++ Word.ofText name) node) ++
      sectionsBelow o front rest

end

/-- What a word leads to, and what stands there itself: a link that is named is both. -/
def lookAt (d : Disk) (w : Word) : Except Errno (Node × Node) :=
  match d.stat (Word.path w), d.resolve (Word.path w) false with
  | .ok node, .ok (.node _ own) => .ok (node, own)
  | _, .ok (.node _ own) => .ok (own, own)
  | .error e, _ => .error e
  | _, _ => .error .noEntry

/-- Lists files, and below them what is in directories, each in order. -/
def ls (c : Call) : Ran :=
  let rules : OptionRules := ⟨"aA1dFprRmQtSUsxCcLHqN", "", [("all", 'a'), ("almost-all", 'A'),
    ("directory", 'd'), ("classify", 'F'), ("reverse", 'r'), ("recursive", 'R'),
    ("quote-name", 'Q')], true⟩
  c.withOptions rules 2 fun o =>
    let targets := (if o.words.isEmpty then [['.']] else o.words).mergeSort Word.comesNoLater
    let targets := if o.has 'r' then targets.reverse else targets
    let found := targets.map fun w => (w, lookAt c.disk w)
    let complaints := found.filterMap fun x => match x.2 with
      | .error e => some (c.complaint s!"cannot access {shellQuoted x.1}: {reason e}")
      | .ok _ => none
    let follows := !o.has 'F'
    let opened := fun (x : Node × Node) =>
      !o.has 'd' && (if follows then x.1.isDir else x.2.isDir)
    let files := found.filterMap fun x => match x.2 with
      | .ok nodes => if opened nodes then none else some (shownName o x.1 nodes.2)
      | .error _ => none
    let sections := found.flatMap fun x => match x.2 with
      | .ok nodes => if opened nodes then sectionsOf o x.1 nodes.1 else []
      | .error _ => []
    let titled := targets.length > 1 || o.has 'R'
    let start := (nameLines o files, files.isEmpty)
    let (printed, _) := sections.foldl (fun (printed, first) (title, names) =>
      match names with
      | none => (printed ++ [c.complaint
          s!"cannot open directory {shellQuoted title}: Permission denied"], first)
      | some names =>
        let blank := if first then [] else ['\n']
        let head := if titled then blank ++ title ++ [':', '\n'] else blank
        (printed ++ [(Stream.out, Word.bytes head ++ nameLines o names)], false))
      ([(Stream.out, start.1)], start.2)
    let shut := sections.any fun x => x.2.isNone
    { c.ends (complaints ++ printed) (if complaints.isEmpty && !shut then 0 else 2) with
      rest := c.input }

/-! ## Changing files -/

/-- Runs a change of the disk for each word: the disk, and what is printed about it. A word fails if
there is a complaint about it. -/
def changeEach (c : Call) (change : Disk → Word → Disk × List (Stream × List UInt8))
    (words : List Word) : Ran :=
  let (disk, printed) := words.foldl (fun (disk, printed) w =>
    let (disk, more) := change disk w
    (disk, printed ++ more)) (c.disk, [])
  let failed := printed.any fun p => p.1 = .err
  { c.ends printed (if failed then 1 else 0) with disk := disk, rest := c.input }

/-- The answer of a change: the new disk, or the old one and a complaint. -/
def changed (c : Call) (d : Disk) (answer : Except Errno Disk) (complain : Errno → String) :
    Disk × List (Stream × List UInt8) :=
  match answer with
  | .ok d => (d, [])
  | .error e => (d, [c.complaint (complain e)])

/-- A line that tells of a change, if that is asked for. -/
def tells (o : Options) (answer : Disk × List (Stream × List UInt8)) (text : String) :
    Disk × List (Stream × List UInt8) :=
  if o.has 'v' && answer.2.isEmpty then (answer.1, [(.out, Word.bytesOf (text ++ "\n"))])
  else answer

/-- Makes files that are not there. -/
def touch (c : Call) : Ran :=
  let rules : OptionRules := ⟨"acmhf", "drt", [("no-create", 'c'), ("date", 'd'),
    ("reference", 'r')], true⟩
  c.withOptions rules 1 fun o =>
    if o.words.isEmpty then c.refuses "missing file operand" 1
    else changeEach c (fun d w =>
      if d.exists (Word.path w) || o.has 'c' then (d, [])
      else changed c d (d.putBytes (Word.path w) []) fun e =>
        let e := if isDirectoryError e then .noEntry else e
        s!"cannot touch {shellQuoted w}: {reason e}") o.words

/-- Whether a word names the directory it stands in or the one above. -/
def isDots (w : Word) : Bool :=
  let name := lastPart w []
  name = ['.'] || name = ['.', '.']

/-- Deletes files, and directories if asked to. -/
def rm (c : Call) : Ran :=
  let rules : OptionRules := ⟨"fiIrRdv", "", [("force", 'f'), ("recursive", 'r'), ("dir", 'd'),
    ("verbose", 'v')], true⟩
  c.withOptions rules 1 fun o =>
    let deep := o.has 'r' || o.has 'R'
    if o.words.isEmpty then
      if o.has 'f' then { c.prints [] 0 with rest := c.input } else c.refuses "missing operand" 1
    else changeEach c (fun d w =>
      let path := Word.path w
      let isDir := match d.resolve (Disk.bare path) false with
        | .ok (.node _ node) => node.isDir
        | _ => false
      if deep && isDots w then
        (d, [c.complaint
          s!"refusing to remove '.' or '..' directory: skipping {shellQuoted w}"])
      else
        let answer := if deep then d.removeAll path
          else if o.has 'd' && isDir then d.removeDir path
          else d.unlink path
        match answer with
        | .error .noEntry =>
          if o.has 'f' then (d, [])
          else (d, [c.complaint s!"cannot remove {shellQuoted w}: {reason .noEntry}"])
        | answer =>
          let what := if isDir then "removed directory " else "removed "
          tells o (changed c d answer fun e => s!"cannot remove {shellQuoted w}: {reason e}")
            (what ++ shellQuoted w)) o.words

/-- Deletes empty directories. -/
def rmdir (c : Call) : Ran :=
  let rules : OptionRules := ⟨"pv", "", [("parents", 'p'), ("verbose", 'v')], true⟩
  c.withOptions rules 1 fun o =>
    if o.words.isEmpty then c.refuses "missing operand" 1
    else
      let fronts := fun (w : Word) =>
        if !o.has 'p' then [w]
        else
          let pieces := Word.pieces (· == '/') (withoutSlashes w)
          ((List.range pieces.length).map fun n =>
            List.intercalate ['/'] (pieces.take (n + 1))).reverse
      changeEach c (fun d w => changed c d (d.removeDir (Word.path w)) fun e =>
        s!"failed to remove {shellQuoted w}: {reason e}") (o.words.flatMap fronts)

/-- The permission bits that a word asks for: octal digits, or letters behind signs; none if it
cannot be understood. -/
def modeAsked? (old : Nat) (w : Word) : Option Nat :=
  if w ≠ [] && w.all isOctal then
    if numberIn 8 w ≤ 0o7777 then some (numberIn 8 w) else none
  else (Word.pieces (· == ',') w).foldl (fun (mode : Option Nat) clause =>
    mode.bind fun old => clauseMode? old clause) (some old)
where
  /-- The bits that one clause makes of others. -/
  clauseMode? (old : Nat) (clause : Word) : Option Nat :=
    let who := clause.takeWhile fun c => "ugoa".toList.contains c
    let scope := if who = [] || who.contains 'a' then 0o777 else
      (if who.contains 'u' then 0o700 else 0) ||| (if who.contains 'g' then 0o070 else 0) |||
        (if who.contains 'o' then 0o007 else 0)
    match clause.drop who.length with
    | sign :: letters =>
      let bits := (if letters.contains 'r' then 0o444 else 0) |||
        (if letters.contains 'w' then 0o222 else 0) |||
        (if letters.contains 'x' || (letters.contains 'X' && old &&& 0o111 ≠ 0) then 0o111 else 0)
      -- without an owner, nobody is given what new files may never have
      let bits := bits &&& scope &&& (if who = [] then 0o755 else 0o777)
      if !letters.all (fun l => "rwxXst".toList.contains l) then none
      else if sign = '+' then some (old ||| bits)
      else if sign = '-' then some (old - (old &&& bits))
      else if sign = '=' then some ((old - (old &&& scope)) ||| bits)
      else none
    | [] => none

/-- Makes directories, and those they lie in if asked to. -/
def mkdir (c : Call) : Ran :=
  let rules : OptionRules := ⟨"pv", "m", [("parents", 'p'), ("mode", 'm'), ("verbose", 'v')], true⟩
  c.withOptions rules 1 fun o =>
    if o.words.isEmpty then c.refuses "missing operand" 1
    else
      let complain := fun (w : Word) (e : Errno) =>
        s!"cannot create directory {plainQuoted w}: {reason e}"
      let withMode := fun (d : Disk) (w : Word) =>
        match (o.value? 'm').bind (modeAsked? 0o777) with
        | some mode => ((d.setMode (Word.path w) mode).toOption).getD d
        | none => d
      changeEach c (fun d w =>
        let path := Word.path w
        if o.has 'p' then
          match d.makeDirs path with
          | (.ok _, d) => (withMode d w, [])
          | (.error e, d) => (d, [c.complaint (complain w e)])
        else match d.makeDir path with
          | .ok d =>
            tells o (withMode d w, []) s!"{String.ofList c.name}: created directory {plainQuoted w}"
          | .error e => (d, [c.complaint (complain w e)])) o.words

/-- Changes the permission bits of files. -/
def changeMode (c : Call) : Ran :=
  -- bits that are taken away look like options
  let isMode := fun (w : Word) =>
    w.head? = some '-' && w.length > 1 && (w.drop 1).all fun l => "rwxXst,".toList.contains l
  let (given, args) := match c.args.find? isMode with
    | some w => ([w], c.args.erase w)
    | none => ([], c.args)
  let rules : OptionRules :=
    ⟨"Rfcv", "", [("recursive", 'R'), ("silent", 'f'), ("quiet", 'f')], true⟩
  { c with args := args }.withOptions rules 1 fun o =>
    match given ++ o.words with
    | [] => c.refuses "missing operand" 1
    | [mode] => c.refuses s!"missing operand after {plainQuoted mode}" 1
    | mode :: files =>
      if (modeAsked? 0 mode).isNone then c.refuses s!"invalid mode: {plainQuoted mode}" 1
      else changeEach c (fun d w =>
        let path := Word.path w
        let below := if o.has 'R' then
            ((d.listing path).map fun (x : List Char × Node) => path.join ⟨x.1⟩).reverse
          else []
        let set := fun (d : Disk) (path : Path) => (d.stat path).bind fun node =>
          d.setMode path ((modeAsked? node.mode mode).getD node.mode)
        let d := below.foldl (fun d path => ((set d path).toOption).getD d) d
        changed c d (set d path) fun e => s!"cannot access {shellQuoted w}: {reason e}") files

/-- Copies the input to files and prints it. -/
def tee (c : Call) : Ran :=
  let rules : OptionRules := ⟨"aip", "", [("append", 'a'), ("ignore-interrupts", 'i')], true⟩
  c.withOptions rules 1 fun o =>
    let ran := changeEach c (fun d w =>
      let there := ((d.readBytes (Word.path w)).toOption).getD []
      let before := if o.has 'a' then there else []
      if w = "/dev/null".toList then (d, [])
      else changed c d (d.putBytes (Word.path w) (before ++ c.input)) fun e =>
        plainComplaint w e) o.words
    let twice := o.words.countP fun w => w = "/dev/stdout".toList
    { ran with
      printed := ran.printed ++ List.replicate (twice + 1) (Stream.out, c.input)
      rest := [] }

/-! ## Places for files -/

/-- The place that a file gets: inside a directory, it keeps its name. -/
def placeFor (d : Disk) (asIs : Bool) (source target : Word) : Word :=
  if !asIs && d.isDir (Word.path target) then
    (if target.getLast? = some '/' then target else target ++ ['/']) ++ lastPart source []
  else target

mutual

/-- Puts a copy of a node at a path. A link stays one, and directories are filled. -/
def copyNode (d : Disk) (path : Path) : Node → Except Errno Disk
  | .file bytes mode =>
    let isNew := !d.exists path
    (d.putBytes path bytes).bind fun d =>
      if isNew then d.setMode path (mode &&& 0o755) else .ok d
  | .link target => ((d.unlink path).toOption.getD d).makeLink path target
  | .dir entries _ =>
    let made := if d.isDir path then .ok d else d.makeDir path
    made.bind fun d => copyEntries d path entries

/-- Puts copies of entries into a directory. -/
def copyEntries (d : Disk) (path : Path) : List (Name × Node) → Except Errno Disk
  | [] => .ok d
  | (name, node) :: rest =>
    (copyNode d (path.join ⟨name⟩) node).bind fun d => copyEntries d path rest

end

/-- Whether two words lead to the same file. -/
def isSameFile (d : Disk) (a b : Word) : Bool :=
  match d.canonicalize (Word.path a), d.canonicalize (Word.path b) with
  | .ok p, .ok q => p.chars = q.chars
  | _, _ => false

/-- The sources and the target among the words of a tool, or what is wrong with them. -/
def sourcesAndTarget (c : Call) (o : Options) : Except Ran (List Word × Word) :=
  match o.value? 't', o.words with
  | some target, words =>
    if words.isEmpty then .error (c.refuses "missing file operand" 1) else .ok (words, target)
  | none, [] => .error (c.refuses "missing file operand" 1)
  | none, [w] => .error (c.refuses s!"missing destination file operand after {shellQuoted w}" 1)
  | none, words =>
    let target := words.getLastD []
    let isDir := c.disk.isDir (Word.path target)
    if words.length > 2 && !isDir then
      let why := if c.disk.exists (Word.path target) then Errno.notDirectory else .noEntry
      .error (c.complains s!"target {shellQuoted target}: {reason why}" 1)
    else .ok (words.dropLast, target)

/-- Copies files, and directories if asked to. -/
def copy (c : Call) : Ran :=
  let rules : OptionRules := ⟨"aRrfpnviuLPHdT", "t", [("recursive", 'r'), ("archive", 'a'),
    ("force", 'f'), ("no-clobber", 'n'), ("verbose", 'v'), ("target-directory", 't'),
    ("no-target-directory", 'T')], true⟩
  c.withOptions rules 1 fun o =>
    match sourcesAndTarget c o with
    | .error ran => ran
    | .ok (sources, target) =>
      let deep := o.has 'r' || o.has 'R' || o.has 'a'
      changeEach c (fun d w =>
        let place := placeFor d (o.has 'T') w target
        let found := if deep then d.resolve (Word.path w) false else d.resolve (Word.path w) true
        let refuse := fun (message : String) => (d, [c.complaint message])
        match found with
        | .error e => refuse s!"cannot stat {shellQuoted w}: {reason e}"
        | .ok (.missing _ _) => refuse s!"cannot stat {shellQuoted w}: {reason .noEntry}"
        | .ok (.node _ node) =>
          if node.isDir && !deep then
            refuse s!"-r not specified; omitting directory {shellQuoted w}"
          else if isSameFile d w place then
            refuse s!"{shellQuoted w} and {shellQuoted place} are the same file"
          else if o.has 'n' && d.exists (Word.path place) then (d, [])
          else if !node.isDir && d.isDir (Word.path place) then
            refuse s!"cannot overwrite directory {shellQuoted place} with non-directory"
          else if node.isDir && d.isFile (Word.path place) then
            let (new, old) := (shellQuoted w, shellQuoted place)
            refuse s!"cannot overwrite non-directory {old} with directory {new}"
          else if node.isFile && !node.mayRead then
            refuse s!"cannot open {shellQuoted w} for reading: {reason .access}"
          else
            let what := if node.isDir then "directory" else "regular file"
            tells o (changed c d (copyNode d (Word.path place) node) fun e =>
              let e := if isDirectoryError e then .notDirectory else e
              s!"cannot create {what} {shellQuoted place}: {reason e}")
              (shellQuoted w ++ " -> " ++ shellQuoted place)) sources

/-- Moves files and directories. -/
def move (c : Call) : Ran :=
  let rules : OptionRules := ⟨"fnviuT", "t", [("force", 'f'), ("no-clobber", 'n'), ("verbose", 'v'),
    ("target-directory", 't'), ("no-target-directory", 'T')], true⟩
  c.withOptions rules 1 fun o =>
    match sourcesAndTarget c o with
    | .error ran => ran
    | .ok (sources, target) =>
      changeEach c (fun d w =>
        let place := placeFor d (o.has 'T') w target
        let refuse := fun (message : String) => (d, [c.complaint message])
        match d.resolve (Word.path w) false with
        | .error e => refuse s!"cannot stat {shellQuoted w}: {reason e}"
        | .ok (.missing _ _) => refuse s!"cannot stat {shellQuoted w}: {reason .noEntry}"
        | .ok (.node _ node) =>
          if isSameFile d w place then
            refuse s!"{shellQuoted w} and {shellQuoted place} are the same file"
          else if o.has 'n' && d.exists (Word.path place) then (d, [])
          else if node.isDir && d.isFile (Word.path place) then
            let (new, old) := (shellQuoted w, shellQuoted place)
            refuse s!"cannot overwrite non-directory {old} with directory {new}"
          else if !node.isDir && d.isDir (Word.path place) then
            refuse s!"cannot overwrite directory {shellQuoted place} with non-directory"
          else
            let whole := s!"cannot move {shellQuoted w} to"
            tells o (changed c d (d.rename (Word.path w) (Word.path place)) fun e =>
              if e = .invalid then s!"{whole} a subdirectory of itself, {shellQuoted place}"
              else s!"{whole} {shellQuoted place}: {reason e}")
              s!"renamed {shellQuoted w} -> {shellQuoted place}") sources

/-- Makes links. -/
def link (c : Call) : Ran :=
  let rules : OptionRules := ⟨"sfnvirT", "t", [("symbolic", 's'), ("force", 'f'),
    ("no-dereference", 'n'), ("verbose", 'v')], true⟩
  c.withOptions rules 1 fun o =>
    let pairs : Except Ran (List Word × Word) := match o.words with
      | [] => .error (c.refuses "missing file operand" 1)
      | [w] => .ok ([w], ['.'])
      | _ => sourcesAndTarget c o
    match pairs with
    | .error ran => ran
    | .ok (sources, target) =>
      changeEach c (fun d w =>
        let asIs := o.has 'T' || (o.has 'n' && (match d.resolve (Word.path target) false with
          | .ok (.node _ (.link _)) => true
          | _ => false))
        let place := placeFor d asIs w target
        let spare := if o.has 'f' then (d.unlink (Word.path place)).toOption.getD d else d
        if o.has 's' then
          changed c spare (spare.makeLink (Word.path place) (Word.text w)) fun e =>
            s!"failed to create symbolic link {shellQuoted place}: {reason e}"
        else match d.resolve (Word.path w) false with
          | .ok (.node _ node) =>
            if node.isDir then
              (d, [c.complaint s!"{shellQuoted w}: hard link not allowed for directory"])
            else
              let made : Except Errno Disk := if spare.exists (Word.path place) then .error .exists
                else copyNode spare (Word.path place) node
              changed c spare made fun e =>
                let shown := shellQuoted place
                if e = .exists then s!"failed to create hard link {shown}: {reason e}"
                else s!"failed to create hard link {shown} => {shellQuoted w}: {reason e}"
          | .ok (.missing _ _) =>
            (d, [c.complaint s!"failed to access {shellQuoted w}: {reason .noEntry}"])
          | .error e => (d, [c.complaint s!"failed to access {shellQuoted w}: {reason e}"])) sources

/-! ## Comparing -/

/-- Compares two files byte by byte. -/
def cmp (c : Call) : Ran :=
  let rules : OptionRules := ⟨"sblv", "", [("silent", 's'), ("quiet", 's')], true⟩
  c.withOptions rules 2 fun o =>
    let first := o.words.headD []
    let second := (o.words[1]?).getD ['-']
    if o.words.isEmpty then
      c.refuses s!"missing operand after {plainQuoted c.name}" 2
    else match bytesNamed c first, bytesNamed c second with
      | .error e, _ => c.complains (plainComplaint first e) 2
      | _, .error e => c.complains (plainComplaint second e) 2
      | .ok a, .ok b =>
        let same := (a.zip b).takeWhile fun x => x.1 = x.2
        let n := same.length
        let lines := same.countP fun x => x.1 = 10
        let differ := fun (stream : Stream) (text : String) =>
          c.ends (if o.has 's' then [] else [(stream, Word.bytesOf text)]) 1
        let x := String.ofList first
        let y := String.ofList second
        if n < min a.length b.length then
          differ .out s!"{x} {y} differ: byte {n + 1}, line {lines + 1}\n"
        else if a.length = b.length then c.prints [] 0
        else
          let shorter := if a.length < b.length then x else y
          if n = 0 then differ .err s!"cmp: EOF on {shorter} which is empty\n"
          else
            let ended := (a.take n).getLast? = some 10
            let place := if ended then s!"line {lines}" else s!"in line {lines + 1}"
            differ .err s!"cmp: EOF on {shorter} after byte {n}, {place}\n"

end ArtifactSync.Process
