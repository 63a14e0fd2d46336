/-
  Files, as far as the program needs them.

  A program that works on files is written once for any
  `FileAccess`.  A disk held in memory is one.

  Key definitions include:
    * `FileError`
    * `FileAccess`
    * `Path.fault?`
    * `Entry`
    * `Entry.follow`
    * `Disk`
    * `Disk.access`
-/

namespace TypedFlux

------------------------------------------------------------
-- Access
------------------------------------------------------------

/- Why a file cannot be used. -/
inductive FileError where
  | notFound
  | alreadyExists
  | notDirectory
  | isDirectory
  | nameTooLong
  | nulInName
  | other (reason : String)

/- The reason in words. -/
def FileError.message : FileError → String
  | .notFound => "No such file or directory (os error 2)"
  | .alreadyExists => "File exists (os error 17)"
  | .notDirectory => "Not a directory (os error 20)"
  | .isDirectory => "Is a directory (os error 21)"
  | .nameTooLong => "File name too long (os error 36)"
  | .nulInName => "file name contained an unexpected NUL byte"
  | .other reason => reason

/-
  What can be done with files.  `append` adds to a file, which
  it creates if need be.
-/
structure FileAccess (m : Type → Type) where
  isPresent : String → m Bool
  read : String → m (Except FileError String)
  createDirectories : List String → m (Except FileError Unit)
  write : String → String → m (Except FileError Unit)
  append : String → String → m (Except FileError Unit)

------------------------------------------------------------
-- Paths
------------------------------------------------------------

namespace Path

/- The parts between slashes. -/
def split : List Char → List (List Char)
  | [] => [[]]
  | '/' :: rest => [] :: split rest
  | c :: rest =>
      match split rest with
      | first :: others => (c :: first) :: others
      | [] => [[c]]

/- The parts of a path; only a first dot means anything. -/
def parts (path : String) : List String :=
  match (split path.toList).map String.ofList with
  | "." :: rest => "." :: rest.filter isProper
  | all => all.filter isProper
where
  isProper (part : String) : Bool :=
    part != "" && part != "."

/- Whether a path begins at the root. -/
def isAbsolute (path : String) : Bool :=
  path.toList.head? == some '/'

/- A path of some parts. -/
def ofParts
    (absolute : Bool)
    (parts : List String) : String :=
  (if absolute then "/" else "") ++ "/".intercalate parts

/-
  The paths of the directories above, the nearest first.  The
  working directory itself is not among them.
-/
def parents (path : String) : List String :=
  let absolute := isAbsolute path
  let above := (parts path).dropLast
  (List.range above.length).map fun n =>
    ofParts absolute (above.take (above.length - n))

/-
  A path without its last part: what is left in front of the
  slash before it.
-/
def withoutLast (path : String) : String :=
  String.ofList
    ((path.toList.reverse.dropWhile (· == '/')).dropWhile
      (· != '/')).reverse

/- Whether a path ends in a slash. -/
def endsInSlash (path : String) : Bool :=
  path.toList.getLast? == some '/'

/- Why a path leads nowhere, wherever it is used. -/
def fault? (path : String) : Option FileError :=
  if path.toList.contains '\x00' then some .nulInName
  else if 4096 ≤ path.utf8ByteSize then some .nameTooLong
  else if path.isEmpty then some .notFound
  else none

/- The longest name of one part, in bytes. -/
def longestName : Nat :=
  255

end Path

------------------------------------------------------------
-- Entries
------------------------------------------------------------

/-
  What stands under a name: a file, a directory, or a sink, which
  swallows what is written and has nothing to read.
-/
inductive Entry where
  | file (content : String)
  | sink
  | directory (entries : List (String × Entry))

/- What a path leads to, and the names on the way from the root. -/
inductive Place where
  | taken (way : List String) (entry : Entry)
  | vacant (way : List String)

namespace Entry

/- What the names on a way lead to. -/
def at? (e : Entry) : List String → Option Entry
  | [] => some e
  | name :: rest =>
      match e with
      | .directory entries =>
          match entries.lookup name with
          | some next => next.at? rest
          | none => none
      | _ => none

/-
  Put something at the end of a way.  Directories on the way that
  are missing are created.
-/
def put (e new : Entry) : List String → Entry
  | [] => new
  | name :: rest =>
      match e with
      | .directory entries =>
          let old := (entries.lookup name).getD (.directory [])
          .directory (entries.filter (·.1 != name)
            ++ [(name, old.put new rest)])
      | e => e

/- The names on the way to a directory, given from its end. -/
def wayOf (above : List (String × Entry)) : List String :=
  (above.map Prod.fst).reverse

/-
  Follow the parts of a path.  `above` has the name of every
  directory on the way and the directory that it stands in, from
  the end of the way.  Every part but the last has to lead to a
  directory, and nothing is above the root.
-/
def follow
    (e : Entry)
    (above : List (String × Entry)) :
    List String → Except FileError Place
  | [] => .ok (.taken (wayOf above) e)
  | part :: rest =>
      match e with
      | .directory entries =>
          if part = "" || part = "." then e.follow above rest
          else if part = ".." then
            match above with
            | [] => e.follow [] rest
            | (_, parent) :: above => parent.follow above rest
          else if Path.longestName < part.utf8ByteSize then
            .error .nameTooLong
          else
            match entries.lookup part with
            | some next => next.follow ((part, e) :: above) rest
            | none =>
                if rest.all (· == "") then
                  .ok (.vacant (wayOf ((part, e) :: above)))
                else .error .notFound
      | _ => .error .notDirectory

end Entry

------------------------------------------------------------
-- Disks in Memory
------------------------------------------------------------

/-
  A disk: everything below its root, the way to the working
  directory, and the ways to files that were written.
-/
structure Disk where
  root : Entry
  home : List String
  written : List (List String) := []

namespace Disk

/- The directories that stand at every root. -/
def topLevel : List String :=
  ["bin", "boot", "dev", "etc", "home", "lib", "media", "mnt",
    "opt", "proc", "root", "run", "sbin", "srv", "sys", "tmp",
    "usr", "var"]

/- A root with the usual directories and a sink. -/
def emptyRoot : Entry :=
  let directories := topLevel.map fun name =>
    (name, Entry.directory [])
  (Entry.directory directories).put .sink ["dev", "null"]

/- A disk with files in its working directory. -/
def ofFiles
    (home : List String)
    (files : List (List String × String)) : Disk :=
  let root := emptyRoot.put (.directory []) home
  { root := files.foldl
      (fun root (way, content) =>
        root.put (.file content) (home ++ way)) root
    home }

/- The parts of a path, from the root. -/
def parts
    (d : Disk)
    (path : String) : List String :=
  let all := (Path.split path.toList).map String.ofList
  if Path.isAbsolute path then all else d.home ++ all

/- What a path leads to. -/
def resolve
    (d : Disk)
    (path : String) : Except FileError Place :=
  match Path.fault? path with
  | some e => .error e
  | none => d.root.follow [] (d.parts path)

/- Whether a path leads to something. -/
def isPresent
    (d : Disk)
    (path : String) : Bool :=
  match d.resolve path with
  | .ok (.taken _ _) => true
  | _ => false

/- The content of a file. -/
def read
    (d : Disk)
    (path : String) : Except FileError String :=
  match d.resolve path with
  | .ok (.taken _ (.file content)) => .ok content
  | .ok (.taken _ .sink) => .ok ""
  | .ok (.taken _ (.directory _)) => .error .isDirectory
  | .ok (.vacant _) => .error .notFound
  | .error e => .error e

/- Put a file at the end of a way. -/
def put
    (d : Disk)
    (way : List String)
    (content : String) : Disk :=
  { d with
    root := d.root.put (.file content) way
    written := way :: d.written }

/-
  Why a path that ends in a slash takes no file: it can only mean
  a directory, if it leads anywhere.
-/
def slashFault
    (d : Disk)
    (path : String) : FileError :=
  match Path.fault? path with
  | some e => e
  | none =>
      match d.root.follow [] (d.parts (Path.withoutLast path)) with
      | .ok (.taken _ (.directory _)) => .isDirectory
      | .ok (.taken _ _) => .notDirectory
      | .ok (.vacant _) => .notFound
      | .error e => e

/- Change or create a file. -/
def store
    (d : Disk)
    (path : String)
    (change : String → String) : Except FileError Disk :=
  if Path.endsInSlash path then .error (d.slashFault path)
  else
    match d.resolve path with
    | .ok (.taken way (.file content)) =>
        .ok (d.put way (change content))
    | .ok (.taken _ .sink) => .ok d
    | .ok (.taken _ (.directory _)) => .error .isDirectory
    | .ok (.vacant way) => .ok (d.put way (change ""))
    | .error e => .error e

/- Create one directory. -/
def createDirectory
    (d : Disk)
    (path : String) : Except FileError Disk :=
  match d.resolve path with
  | .ok (.vacant way) =>
      .ok { d with root := d.root.put (.directory []) way }
  | .ok (.taken _ _) => .error .alreadyExists
  | .error e => .error e

/- Whether a path leads to a directory. -/
def leadsToDirectory
    (d : Disk)
    (path : String) : Bool :=
  match d.resolve path with
  | .ok (.taken _ (.directory _)) => true
  | _ => false

/-
  Create a directory, the first path, after those above it, the
  other paths, as far as they are missing.
-/
def createDirectories
    (d : Disk) : List String → Except FileError Disk
  | [] => .ok d
  | path :: above =>
      match d.createDirectory path with
      | .ok d => .ok d
      | .error .notFound => do
          let d ← d.createDirectories above
          match d.createDirectory path with
          | .ok d => .ok d
          | .error e =>
              if d.leadsToDirectory path then .ok d else .error e
      | .error e =>
          if d.leadsToDirectory path then .ok d else .error e

/- Keep the change of a disk, if there is one. -/
def update :
    Except FileError Disk → StateM Disk (Except FileError Unit)
  | .ok d => do
      set d
      return .ok ()
  | .error e => return .error e

/- A disk in memory as files. -/
def access : FileAccess (StateM Disk) where
  isPresent := fun path => do return (← get).isPresent path
  read := fun path => do return (← get).read path
  createDirectories := fun paths => do
    update ((← get).createDirectories paths)
  write := fun path content => do
    update ((← get).store path fun _ => content)
  append := fun path content => do
    update ((← get).store path (· ++ content))

/- The content of the file at the end of a way. -/
def content?
    (d : Disk)
    (way : List String) : Option String :=
  match d.root.at? way with
  | some (.file content) => some content
  | _ => none

/-
  The files of the working directory that are new or changed
  since an earlier state.
-/
def changes (earlier later : Disk) : List (String × String) :=
  later.written.eraseDups.filterMap fun way =>
    match later.content? way with
    | some content =>
        if later.home.isPrefixOf way
            && earlier.content? way != some content then
          some ("/".intercalate (way.drop later.home.length), content)
        else none
    | none => none

end Disk

end TypedFlux
