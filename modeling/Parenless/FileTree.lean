import Parenless.Text.Blank
/-!
Files and the search path.

A session reads source files from a tree of files held in memory, whose root is the
working directory. A path is read the usual POSIX way: it is absolute when it starts
with a slash, empty parts and `.` parts are dropped, and its name is its last part.

Resolving a source name: a path that exists (a file or a directory) is used as it
is; otherwise each search root is tried in turn, first `root/name`, then `root/name`
with its suffix replaced by `.pn`, and only files count; when nothing matches, the
name is used as it is, so that opening it fails. The search roots come from a
colon-separated list with blanks trimmed and empty entries dropped; no list, or an
empty one, means the working directory alone.

Reading a file decodes it as UTF-8 (strictly) and turns every carriage return line
feed pair, and every carriage return alone, into a line feed.
-/

namespace Parenless

/-- A file path split into its parts. -/
structure FsPath where
  absolute : Bool
  parts : List String
  deriving Repr, DecidableEq, Inhabited

namespace FsPath

/-- Reads a path: absolute when it starts with a slash; empty and `.` parts dropped. -/
def parse (s : String) : FsPath :=
  ⟨s.startsWith "/", (s.splitOn "/").filter fun p => p != "" && p != "."⟩

/-- The path as text: its parts joined by slashes, `.` for the empty relative path. -/
def render (p : FsPath) : String :=
  if p.absolute then "/" ++ "/".intercalate p.parts
  else if p.parts.isEmpty then "."
  else "/".intercalate p.parts

/-- `p` inside the directory `root`; an absolute `p` stays as it is. -/
def under (root p : FsPath) : FsPath :=
  if p.absolute then p else ⟨root.absolute, root.parts ++ p.parts⟩

/-- The suffix of a file name: from its last dot, when that dot is neither the first
nor the last character. -/
def suffixOf (name : String) : String :=
  let cs := name.toList
  match (List.range cs.length).reverse.find? fun i => cs[i]? == some '.' with
  | some i => if 0 < i ∧ i + 1 < cs.length then String.ofList (cs.drop i) else ""
  | none => ""

/-- The path with the suffix of its name replaced by `sfx` (added when it has none). -/
def withSuffix (p : FsPath) (sfx : String) : FsPath :=
  match p.parts.getLast? with
  | none => p
  | some name =>
    let old := suffixOf name
    let stem := String.ofList (name.toList.take (name.length - old.length))
    ⟨p.absolute, p.parts.dropLast ++ [stem ++ sfx]⟩

end FsPath

/-- What reading a file gives. -/
inductive Contents where
  /-- No file there (nothing, or a directory). -/
  | missing
  /-- A file whose bytes are not UTF-8. -/
  | undecodable
  /-- A file's text. -/
  | text (s : String)
  deriving Repr, DecidableEq, Inhabited

/-- Turns carriage return line feed pairs and lone carriage returns into line feeds. -/
def unifyNewlines : List Char → List Char
  | '\r' :: '\n' :: rest => '\n' :: unifyNewlines rest
  | '\r' :: rest => '\n' :: unifyNewlines rest
  | c :: rest => c :: unifyNewlines rest
  | [] => []

/-- Files by path (relative, as lists of parts), with their bytes. -/
structure FileTree where
  files : List (List String × ByteArray)
  deriving Inhabited

namespace FileTree

/-- The parts of a relative path after walking `..` steps, when every directory
passed through exists. -/
def walk (t : FileTree) : List String → List String → Option (List String)
  | here, [] => some here
  | here, ".." :: rest => if here.isEmpty then none else t.walk here.dropLast rest
  | here, p :: rest =>
    let next := here ++ [p]
    if rest.isEmpty ∨ t.files.any (fun f => next.isPrefixOf f.1 && next != f.1) then
      t.walk next rest
    else none

/-- The stored parts a path names, if it stays inside the tree. -/
def locate (t : FileTree) (p : FsPath) : Option (List String) :=
  if p.absolute then none else t.walk [] p.parts

/-- Whether a path names a file. -/
def isFile (t : FileTree) (p : FsPath) : Bool :=
  match t.locate p with
  | some ps => t.files.any fun f => f.1 == ps
  | none => false

/-- Whether a path names a directory: the root, or a proper beginning of a file's path. -/
def isDir (t : FileTree) (p : FsPath) : Bool :=
  match t.locate p with
  | some ps => ps.isEmpty || t.files.any fun f => ps.isPrefixOf f.1 && ps != f.1
  | none => false

/-- Whether a path names a file or a directory. -/
def present (t : FileTree) (p : FsPath) : Bool := t.isFile p || t.isDir p

/-- Reads the text of the file a path names. -/
def read (t : FileTree) (p : FsPath) : Contents :=
  match t.locate p with
  | none => .missing
  | some ps =>
    match t.files.find? fun f => f.1 == ps with
    | none => .missing
    | some (_, bytes) =>
      match String.fromUTF8? bytes with
      | some s => .text (String.ofList (unifyNewlines s.toList))
      | none => .undecodable

/-- The search roots named by a colon-separated list: trimmed, empty entries dropped;
the working directory alone when there is no list or it is empty. -/
def roots (list : Option String) : List FsPath :=
  match list with
  | none | some "" => [FsPath.parse "."]
  | some s =>
    ((s.splitOn ":").map Text.trim).filter (· != "") |>.map FsPath.parse

/-- The files tried for a source name after the name itself, in order. -/
def tries (roots : List FsPath) (p : FsPath) : List FsPath :=
  roots.flatMap fun r => [r.under p, r.under (p.withSuffix ".pn")]

/-- Where a source name resolves to, trying the search roots (see the module comment). -/
def resolve (t : FileTree) (roots : List FsPath) (name : String) : FsPath :=
  let p := FsPath.parse name
  if p.absolute || t.present p then p
  else
    match (tries roots p).find? t.isFile with
    | some c => c
    | none => p

/-- Every path resolving a source name may look at. -/
def lookups (roots : List FsPath) (name : String) : List FsPath :=
  let p := FsPath.parse name
  p :: tries roots p

/-- Adds a file at a relative path, in place of one it had. -/
def insert (t : FileTree) (p : FsPath) (bytes : ByteArray) : FileTree :=
  if p.absolute then t
  else ⟨(t.files.filter fun f => f.1 != p.parts) ++ [(p.parts, bytes)]⟩

end FileTree

end Parenless
