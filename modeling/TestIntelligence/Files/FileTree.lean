import TestIntelligence.Files.PosixPath
import TestIntelligence.Js.Collections
import TestIntelligence.Js.Utf8

/-!
# A tree of files

Directories and files as `node:fs` shows them to a program that only reads.  Names are
bytes; the program sees them as text.  There are no links.
-/

namespace TestIntelligence.Files

open Js

inductive Node where
  | file (content : Bytes)
  | directory (entries : List (Bytes × Node))

inductive FsError
  | enoent
  | enotdir
  | eisdir
  | invalidArgument
  deriving DecidableEq

structure Disk where
  root : Node
  cwd : JsString

/-- The node a path leads to, from a node below the given ancestors. -/
def walk (ancestors : List Node) (node : Node) : List JsString → Except FsError Node
  | [] => .ok node
  | part :: parts =>
      match node with
      | .file _ => .error .enotdir
      | .directory entries =>
          if part = [] ∨ part = dot then walk ancestors node parts
          else if part = dotDot then
            match ancestors with
            | [] => walk [] node parts
            | parent :: rest => walk rest parent parts
          else
            match mapGet entries (utf8Encode part) with
            | none => .error .enoent
            | some child => walk (node :: ancestors) child parts

def Disk.find (disk : Disk) (path : JsString) : Except FsError Node :=
  if path = [] then .error .enoent
  else if 0 ∈ path then .error .invalidArgument
  else walk [] disk.root (if isAbsolute path then split slash path
    else split slash disk.cwd ++ split slash path)

/-- The node, or nothing where there is none; other errors are thrown. -/
def Disk.stat (disk : Disk) (path : JsString) : Except FsError (Option Node) :=
  match disk.find path with
  | .ok node => .ok (some node)
  | .error .enoent => .ok none
  | .error error => .error error

def Disk.readFile (disk : Disk) (path : JsString) : Except FsError Bytes :=
  match disk.find path with
  | .ok (.file content) => .ok content
  | .ok (.directory _) => .error .eisdir
  | .error error => .error error

def Disk.readDirectory (disk : Disk) (path : JsString) : Except FsError (List (Bytes × Node)) :=
  match disk.find path with
  | .ok (.file _) => .error .enotdir
  | .ok (.directory entries) => .ok entries
  | .error error => .error error

def Node.isDirectory : Node → Bool
  | .file _ => false
  | .directory _ => true

end TestIntelligence.Files
