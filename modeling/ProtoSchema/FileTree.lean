import ProtoSchema.Text.Split
import ProtoSchema.Wire.Message

/-!
# File trees

The front ends read a configuration, an extension file and a descriptor set,
and may write one file. The tree of files that they see is a value here, so
that what a run reads and writes can be stated. A directory exists when it is
listed or when something is inside it.

What a system may refuse is a part of the tree: the places that it does not
let a run read or open to be written, with its words for it, and how much it
takes into a file before a write fails. Not modelled are links, symbolic or
hard: each place is a file of its own.
-/

namespace ProtoSchema

open ProtoSchema.Wire (Bytes)

/-- What a path may lead to. -/
inductive FileTree.Entry where
  | file (content : Bytes)
  | directory
  /-- A device or a pipe. It gives `content`, whatever is written to it. What is
  written goes to the standard output of the run if the device echoes, and out
  of sight otherwise. -/
  | device (content : Bytes) (echoes : Bool)
  deriving DecidableEq, Repr

/-- Why a path cannot be used, in the words of the system. -/
structure FileTree.Fault where
  message : String
  deriving DecidableEq, Repr

namespace FileTree.Fault

def notFound : Fault := { message := "No such file or directory (os error 2)" }

def notDirectory : Fault := { message := "Not a directory (os error 20)" }

def isDirectory : Fault := { message := "Is a directory (os error 21)" }

def noSpace : Fault := { message := "No space left on device (os error 28)" }

def nul : Fault := { message := "file name contained an unexpected NUL byte" }

def notUtf8 : Fault := { message := "stream did not contain valid UTF-8" }

end FileTree.Fault

/-- Files and directories by their places. A place is a list of names, seen
from the working directory; a list that starts with `/` is seen from the root,
and names `..` in front lead out of the working directory. -/
structure FileTree where
  entries : List (List String × FileTree.Entry) := []
  /-- What the system says of the places that may not be read. -/
  unreadable : List (List String × FileTree.Fault) := []
  /-- What it says of those that may not be opened to be written, or that take
  nothing. -/
  unwritable : List (List String × FileTree.Fault) := []
  /-- How many bytes can be written to a file before the system fails, if it
  ever does. -/
  room : Option Nat := none
  deriving DecidableEq, Repr

namespace FileTree

/-- Whether a place is a directory without being listed: the root, the working
directory, and those around it. -/
def isAnchor (place : List String) : Bool :=
  place = ["/"] || place.all (· = "..")

def at? (t : FileTree) (place : List String) : Option Entry :=
  match t.entries.lookup place with
  | some entry => some entry
  | none =>
    if isAnchor place || t.entries.any (fun (p, _) => place.isPrefixOf p) then some .directory
    else none

/-- The place that one step of a path leads to. -/
def step (place : List String) (name : String) : List String :=
  if name = "" ∨ name = "." then place
  else if name = ".." then
    if place = ["/"] then place
    else if isAnchor place then place ++ [".."]
    else place.dropLast
  else place ++ [name]

/-- Follows the steps of a path from a place. Every place that is stepped out
of has to be a directory. -/
def follow (t : FileTree) (place : List String) : List String → Except Fault (List String)
  | [] => .ok place
  | name :: rest =>
    match t.at? place with
    | none => .error .notFound
    | some .directory => t.follow (step place name) rest
    | some _ => .error .notDirectory

def origin (path : String) : List String :=
  if path.toList.head? = some '/' then ["/"] else []

/-- The place that a path leads to; the last step need not exist. -/
def locate (t : FileTree) (path : String) : Except Fault (List String) :=
  if path.isEmpty then .error .notFound
  else if path.toList.contains '\x00' then .error .nul
  else t.follow (origin path) (Text.pieces '/' path)

def read (t : FileTree) (path : String) : Except Fault Bytes := do
  let place ← t.locate path
  match t.unreadable.lookup place with
  | some fault => .error fault
  | none =>
    match t.at? place with
    | none => .error .notFound
    | some .directory => .error .isDirectory
    | some (.file content) => .ok content
    | some (.device content _) => .ok content

def readText (t : FileTree) (path : String) : Except Fault String := do
  let content ← t.read path
  match Wire.readText content with
  | .ok s => .ok s
  | .error _ => .error .notUtf8

def contains (t : FileTree) (path : String) : Bool :=
  match t.locate path with
  | .ok place => (t.at? place).isSome
  | .error _ => false

/-- The tree with an entry put at a place. -/
def put (t : FileTree) (place : List String) (entry : Entry) : FileTree :=
  { t with entries := (place, entry) :: t.entries.filter (·.1 ≠ place) }

/-- The place at which a path is opened to be written. -/
def opened (t : FileTree) (path : String) : Except Fault (List String) := do
  let place ← t.locate path
  match t.unwritable.lookup place with
  | some fault => .error fault
  | none => if t.at? place = some .directory then .error .isDirectory else .ok place

/-- Whether a device at a place echoes, if there is a device. -/
def echoes? (t : FileTree) (place : List String) : Option Bool :=
  match t.at? place with
  | some (.device _ echoes) => some echoes
  | _ => none

/-- What a write leaves behind, whether or not it succeeds. -/
structure Written where
  tree : FileTree
  /-- Whether the content has gone to the standard output. -/
  echoed : Bool := false
  fault : Option Fault := none

/-- Opens a file and writes to it. Opening makes the file, or empties it; what
there is no room for after that is lost. -/
def write (t : FileTree) (path : String) (content : Bytes) : Written :=
  match t.opened path with
  | .error fault => { tree := t, fault := some fault }
  | .ok place =>
    match t.echoes? place with
    | some echoes => { tree := t, echoed := echoes }
    | none =>
      let kept := content.take (t.room.getD content.length)
      { tree := t.put place (.file kept)
        fault := if kept.length < content.length then some .noSpace else none }

/-- The place that a path leads to, whatever is on the way to it. -/
def placeOf (path : String) : List String :=
  (Text.pieces '/' path).foldl step (origin path)

/-- The tree with an entry at a path. -/
def add (t : FileTree) (path : String) (entry : Entry) : FileTree :=
  t.put (placeOf path) entry

/-- The tree with a file at a path that may not be read. -/
def addUnreadable (t : FileTree) (path : String) (fault : Fault) : FileTree :=
  { t.add path (.file []) with unreadable := (placeOf path, fault) :: t.unreadable }

end FileTree

end ProtoSchema
