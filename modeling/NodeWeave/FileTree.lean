import NodeWeave.Fault
import NodeWeave.Text.Utf8

/-!
# Files and directories

A file tree is a snapshot of the files a run can see.  Relative paths start at
the working directory.  Directories are there because a file lies in them, or
because they were made; the working directory, those above it, the root and the
directories of the system in it are always there.

Some locations are no files but devices.  What is written to a device is not kept: it
may come out on the standard output, and a device may refuse it.
-/

namespace NodeWeave

/-- A path without empty parts and without parts that stay in place. -/
structure Path where
  /-- The slashes in front of a path that starts at the root: one, or two when
  there were exactly two. -/
  root : String
  parts : List String
  deriving DecidableEq

namespace Path

/-- Reads a path. -/
def ofText (text : String) : Path :=
  let slashes := (text.toList.takeWhile (· == '/')).length
  { root := if slashes = 0 then "" else if slashes = 2 then "//" else "/"
    parts := (Text.split '/' text).filter fun part => part != "" && part != "." }

/-- Does the path start at the root? -/
def isAbsolute (p : Path) : Bool :=
  !p.root.isEmpty

/-- The path as messages show it. -/
def text (p : Path) : String :=
  if p.root.isEmpty && p.parts.isEmpty then "." else p.root ++ "/".intercalate p.parts

/-- Has one of the parts the character with code 0, which no name has? -/
def hasNull (p : Path) : Bool :=
  p.parts.any (·.toList.contains '\x00')

/-- How many bytes the name of a file may have. -/
def maxName : Nat := 255

/-- How many bytes a path may have. -/
def maxLength : Nat := 4095

end Path

/-- The names that lead to a file or a directory from the working directory.
The root is the name `/`, and `..` stands only in front. -/
abbrev Location := List String

namespace Location

/-- The location that relative or absolute paths start at. -/
def start (p : Path) : Location :=
  if p.isAbsolute then ["/"] else []

/-- The directories in the root that every system has. -/
def systemNames : List String :=
  ["bin", "boot", "dev", "etc", "home", "lib", "media", "mnt", "opt", "proc", "root", "run",
    "sbin", "srv", "sys", "tmp", "usr", "var"]

/-- Is there a directory at the location in every tree? -/
def isFixed : Location → Bool
  | ["/"] => true
  | ["/", name] => systemNames.contains name
  | l => l.all (· == "..")

/-- Where the device is that takes everything and keeps nothing. -/
def nullDevice : Location :=
  ["/", "dev", "null"]

/-- The directory above. -/
def parent (l : Location) : Location :=
  if l == ["/"] then l
  else if l.all (· == "..") then l ++ [".."]
  else l.dropLast

/-- The location as a path. -/
def text : Location → String
  | "/" :: rest => "/" ++ "/".intercalate rest
  | l => "/".intercalate l

end Location

/-- What is at a location without being stored there. -/
structure Device where
  /-- What there is to read. -/
  contents : ByteArray
  /-- What comes out on the standard output when a text is written, and the fault that
  ends the writing, if one does. -/
  write : String → String × Option Fault

/-- The device from which there is nothing to read and which takes everything. -/
def Device.null : Device where
  contents := ByteArray.empty
  write := fun _ => ("", none)

/-- The files of a run with their contents, the empty directories made for it, and the
devices. -/
structure FileTree where
  files : Table Location ByteArray := []
  directories : List Location := []
  devices : Table Location Device := [(Location.nullDevice, .null)]
  deriving Inhabited

/-- What a path leads to. -/
inductive FileEntry where
  | file (contents : ByteArray)
  | directory

namespace FileTree

/-- What there is to read at a location, if there is a device or a file. -/
def file? (t : FileTree) (l : Location) : Option ByteArray :=
  match t.devices.get? l with
  | some device => some device.contents
  | none => t.files.get? l

/-- Is there a directory at the location? -/
def isDirectory (t : FileTree) (l : Location) : Bool :=
  l.isFixed || t.directories.contains l ||
    t.files.any fun (f, _) => l.length < f.length && l.isPrefixOf f

/-- Follows the parts of a path from a directory. -/
def follow (t : FileTree) (dir : Location) : List String → Except FileFault FileEntry
  | [] => .ok .directory
  | part :: rest =>
    if part = ".." then t.follow dir.parent rest
    else if Path.maxName < Text.byteSize part then .error .nameTooLong
    else
      let here := dir ++ [part]
      match t.file? here with
      | some contents => if rest.isEmpty then .ok (.file contents) else .error .notDirectory
      | none => if t.isDirectory here then t.follow here rest else .error .missing

/-- What a path leads to. -/
def find (t : FileTree) (p : Path) : Except FileFault FileEntry :=
  if Path.maxLength < Text.byteSize p.text then .error .nameTooLong
  else t.follow (Location.start p) p.parts

/-- Does the path lead to something?  One that is too long cannot be asked for. -/
def exists? (t : FileTree) (p : Path) : Except Fault Bool :=
  if p.hasNull then .ok false
  else
    match t.find p with
    | .ok _ => .ok true
    | .error .nameTooLong => .error (.file .nameTooLong p.text)
    | .error _ => .ok false

/-- The contents of a file, or nothing when the path leads to none. -/
def contents? (t : FileTree) (p : Path) : Option ByteArray :=
  match t.find p with
  | .ok (.file contents) => some contents
  | _ => none

/-- The contents of the file that a path names as it is written: with nothing or
a part that stays in place at its end, it names a directory. -/
def contentsAt? (t : FileTree) (path : String) : Option ByteArray :=
  let isFileName := match (Text.split '/' path).getLast? with
    | some name => name != "" && name != "."
    | none => false
  if isFileName && Text.byteSize path ≤ Path.maxLength then t.contents? (Path.ofText path) else none

/-- The bytes of a file as text with plain line ends. -/
def decodeText (contents : ByteArray) : Except Fault (List Char) :=
  ((Utf8.decode contents).mapError Fault.encoding).map Utf8.unifyNewlines

/-- The text of a file. -/
def readText (t : FileTree) (p : Path) : Except Fault (List Char) :=
  if p.hasNull then .error .nullByte
  else
    match t.find p with
    | .error cause => .error (.file cause p.text)
    | .ok .directory => .error (.file .isDirectory p.text)
    | .ok (.file contents) => decodeText contents

/-- Makes the directories of a path that are not there and tells where it
leads. -/
def makeDirectories (t : FileTree) (dir : Location) :
    List String → Except FileFault (FileTree × Location)
  | [] => .ok (t, dir)
  | part :: rest =>
    if part = ".." then t.makeDirectories dir.parent rest
    else if Path.maxName < Text.byteSize part then .error .nameTooLong
    else
      let here := dir ++ [part]
      if (t.file? here).isSome then .error (if rest.isEmpty then .exists else .notDirectory)
      else if t.isDirectory here then t.makeDirectories here rest
      else makeDirectories { t with directories := t.directories ++ [here] } here rest

/-- Puts contents into the file at a location. -/
def put (t : FileTree) (l : Location) (contents : ByteArray) : FileTree :=
  { t with files := t.files.put l contents }

/-- What the writing of a text leaves behind: the files, what came out on the standard
output, and the fault that ended it. -/
structure Written where
  files : FileTree
  output : String := ""
  fault : Option Fault := none

/-- Writes a file in a directory, or to a device.  A text with half a character leaves
the file empty. -/
def writeAt (t : FileTree) (dir : Location) (name : String) (text : String) : Written :=
  let here := dir ++ [name]
  match t.devices.get? here, Utf8.encode? text with
  | none, none => { files := t.put here ByteArray.empty, fault := some .halfCharacter }
  | none, some contents => { files := t.put here contents }
  | some _, none => { files := t, fault := some .halfCharacter }
  | some device, some _ =>
    let (output, fault) := device.write text
    { files := t, output, fault }

/-- Why no file can be written under a name in a directory. -/
def obstacle? (t : FileTree) (dir : Location) (name : String) : Option FileFault :=
  if name = ".." then some .isDirectory
  else if Path.maxName < Text.byteSize name then some .nameTooLong
  else if t.isDirectory (dir ++ [name]) then some .isDirectory
  else none

/-- Writes a text to a file, after making the directories it lies in. -/
def writeText (t : FileTree) (p : Path) (text : String) : Written :=
  let failed (cause : FileFault) : Written := { files := t, fault := some (.file cause p.text) }
  let parent : Path := { p with parts := p.parts.dropLast }
  if parent.hasNull then { files := t, fault := some .nullByte }
  else if Path.maxLength < Text.byteSize parent.text then failed .nameTooLong
  else
    match p.parts.getLast? with
    | none => failed .isDirectory
    | some name =>
      match t.makeDirectories (Location.start p) parent.parts with
      | .error cause => failed cause
      | .ok (t, dir) =>
        if p.hasNull then { files := t, fault := some .nullByte }
        else if Path.maxLength < Text.byteSize p.text then failed .nameTooLong
        else
          match t.obstacle? dir name with
          | some cause => failed cause
          | none => t.writeAt dir name text

/-- The files of the second tree that the first one lacks or has with other
contents. -/
def changes (before after : FileTree) : List (Location × ByteArray) :=
  after.files.filter fun (l, contents) => before.files.get? l != some contents

end FileTree

end NodeWeave
