/-
A directory of files.

A file is a name with bytes. Files are addressed by paths. The directory is
flat and paths start in it: a path may first stay in place any number of times,
and what is left has to be the name of a file, for another separator would lead
into a directory that does not exist. Creating a file that exists empties it.
-/

import Std.Data.TreeMap

namespace CycleTrace
namespace Output

/-- The files of a directory. -/
structure Directory where
  files : Std.TreeMap String (Array UInt8) := {}

namespace Directory

/-- The longest file name, in bytes. -/
def longestName : Nat := 255

/-- The longest path, in bytes. -/
def longestPath : Nat := 4095

/-- Drops the leading steps of a path that stay in place. A separator may be
repeated after such a step. -/
def dropStillSteps (stepped : Bool) : List Char → List Char
  | '.' :: '/' :: rest => dropStillSteps true rest
  | '/' :: rest => if stepped then dropStillSteps true rest else '/' :: rest
  | rest => rest

/-- Whether characters form the name of a file. -/
def isFileName (name : List Char) : Bool :=
  name ≠ [] && name ≠ ['.'] && name ≠ ['.', '.']
    && (String.ofList name).utf8ByteSize ≤ longestName
    && name.all fun c => c ≠ '/' && c ≠ '\x00'

/-- The name of the file that a path leads to. -/
def fileName? (path : String) : Option String :=
  let name := dropStillSteps false path.toList
  if path.utf8ByteSize ≤ longestPath && isFileName name then some (String.ofList name) else none

/-- The bytes of the file that a path leads to. -/
def find? (directory : Directory) (path : String) : Option (Array UInt8) := do
  directory.files[← fileName? path]?

/-- The bytes of a file; a file that does not exist has none. -/
def contents (directory : Directory) (name : String) : Array UInt8 :=
  directory.files.getD name #[]

/-- Creates an empty file. -/
def create (directory : Directory) (name : String) : Directory :=
  { files := directory.files.insert name #[] }

/-- Adds bytes to the end of a file. -/
def append (directory : Directory) (name : String) (bytes : List UInt8) : Directory :=
  { files := directory.files.modify name (· ++ bytes) }

end Directory
end Output
end CycleTrace
