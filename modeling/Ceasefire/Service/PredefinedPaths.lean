/-
# The paths of a template: `service/src/app_group/predefine.rs`

`expand_member_paths` walks through the components of a template and keeps the paths that they lead
to.  Two kinds of component read a directory: `%USERNAME%` stands for each directory in it, and a
component with `*` for each entry whose name matches.  Any other component is appended as it is,
whether or not there is such a file.

A directory is read by the path of it (`Disk`), and `Disk.fileSystem` is what the disk is for
`sync_predefined_members`.  Names are Unicode.
-/

import Ceasefire.Base.Utf16
import Ceasefire.Service.AppGroups

namespace Ceasefire
namespace Service

open Text (toAsciiLowercase)

/-! ## `std::path`, on Windows -/

def isSepByte (c : Char) : Bool := c == '\\' || c == '/'

/-- The drive of a path, and what is behind it.  Prefixes of network and of verbatim paths, which no
template has, are left out. -/
def splitDrive : List Char → List Char × List Char
  | c :: ':' :: rest => if c.isAlpha then ([c, ':'], rest) else ([], c :: ':' :: rest)
  | path => ([], path)

/-- `has_root` -/
def hasRoot (path : List Char) : Bool := (splitDrive path).2.head?.any isSepByte

/-- `Component`; `.` and `..` are left out, which the loop skips. -/
inductive Component
  | drive (letters : List Char)
  | rootDir
  | normal (seg : List Char)
  deriving DecidableEq, Repr

/-- `Path::components` -/
def components (path : List Char) : List Component :=
  (if (splitDrive path).1 = [] then [] else [.drive (splitDrive path).1]) ++
    (if hasRoot path then [.rootDir] else []) ++
      (((splitDrive path).2.splitOnP isSepByte).filter fun seg =>
        !([[], ['.'], ['.', '.']].contains seg)).map .normal

/-- `PathBuf::push` -/
def push (base path : List Char) : List Char :=
  if (splitDrive path).1 ≠ [] then path
  else if hasRoot path then (splitDrive base).1 ++ path
  -- no separator behind `C:`
  else if base = (splitDrive base).1 ∨ base.getLast?.any isSepByte then base ++ path
  else base ++ '\\' :: path

/-! ## The expansion -/

/-- `DirEntry` -/
structure DirEntry where
  fileName : List Char
  isDir : Bool
  deriving DecidableEq, Repr

/-- The file system: the entries of a directory that can be read, and whether a path exists. -/
structure Disk where
  readDir : List Char → Option (List DirEntry)
  pathExists : List Char → Bool

/-- `wildcard_match`.  Its slices are of bytes; one that ends inside a character is equal to no text. -/
def wildcardMatch (name pattern : List Char) : Bool :=
  if pattern.contains '*' then
    let start := pattern.takeWhile (· != '*')
    let suffix := (pattern.dropWhile (· != '*')).tail
    if name.length < start.length + suffix.length then false
    else
      toAsciiLowercase (name.take start.length) == toAsciiLowercase start &&
        toAsciiLowercase (name.drop (name.length - suffix.length)) == toAsciiLowercase suffix
  else toAsciiLowercase name == toAsciiLowercase pattern

/-- The paths of the entries of a directory that a component stands for. -/
def entryPaths (disk : Disk) (seg base : List Char) : List (List Char) :=
  (((disk.readDir base).getD []).filter fun entry =>
    if seg = "%USERNAME%".toList then entry.isDir else wildcardMatch entry.fileName seg).map
      fun entry => push base entry.fileName

/-- `expand_member_paths`, with the paths so far and the components to come. -/
def expandFrom (disk : Disk) : List (List Char) → List Component → List (List Char)
  | current, [] => current
  | current, .drive letters :: rest =>
      expandFrom disk (if current = [] then [letters] else current.map (push · letters)) rest
  | current, .rootDir :: rest => expandFrom disk (current.map (push · ['\\'])) rest
  | current, .normal seg :: rest =>
      let next :=
        if seg = "%USERNAME%".toList || seg.contains '*' then current.flatMap (entryPaths disk seg)
        else current.map (push · seg)
      if next = [] then [] else expandFrom disk next rest

/-- `expand_member_paths` -/
def expandMemberPaths (disk : Disk) (template : List Char) : List (List Char) :=
  expandFrom disk [] (components template)

/-- What `sync_predefined_members` asks the disk. -/
def Disk.fileSystem (disk : Disk) : FileSystem where
  expandMemberPaths template := (expandMemberPaths disk template.toList).map String.ofList
  pathExists path := disk.pathExists path.toList

/-- A directory `app-*` on a disk of one user. -/
example :
    expandMemberPaths
        ⟨fun dir =>
          if dir = "C:\\Users".toList then some [⟨"Ann".toList, true⟩, ⟨"a.txt".toList, false⟩]
          else if dir = "C:\\Users\\Ann\\Discord".toList then
            some [⟨"App-1.0".toList, true⟩, ⟨"app".toList, true⟩]
          else none, fun _ => false⟩
        "C:\\Users\\%USERNAME%\\Discord\\app-*\\Discord.exe".toList =
      ["C:\\Users\\Ann\\Discord\\App-1.0\\Discord.exe".toList] := by
  decide +kernel

end Service
end Ceasefire
