import Leasehold.Text.Pieces
import Leasehold.Text.Utf8

set_option autoImplicit false

/-! A directory of files that paths lead into, and what reading one of them answers. -/

namespace Leasehold

abbrev Path := Bytes

inductive FileNode where
  | file (contents : Bytes)
  | directory
  deriving DecidableEq

/-- The files below the working directory, each under the names on the way to it. -/
structure Files where
  nodes : List (List Path × FileNode) := []

inductive ReadError where
  | notFound
  | isDirectory
  | notDirectory
  | notText
  | other (reason : String)
  deriving DecidableEq, Repr

def ReadError.message : ReadError → String
  | notFound => "No such file or directory (os error 2)"
  | isDirectory => "Is a directory (os error 21)"
  | notDirectory => "Not a directory (os error 20)"
  | notText => "stream did not contain valid UTF-8"
  | other reason => reason

namespace Path

def slash : UInt8 := 0x2f

def names (path : Path) : List Path := Text.pieces slash path

def here : Path := [0x2e]

def above : Path := [0x2e, 0x2e]

end Path

/-- Where a walk along a path stands. Nothing is known of what lies outside the working directory. -/
inductive Place where
  | within (names : List Path)
  | outside
  deriving DecidableEq, Repr

namespace Files

variable (files : Files)

/-- What is at a place below the working directory. A directory is there also when only something
below it is known. -/
def node? (names : List Path) : Option FileNode :=
  match files.nodes.lookup names with
  | some node => some node
  | none =>
      if names = [] || files.nodes.any fun (other, _) => names.isPrefixOf other then some .directory
      else none

def at? : Place → Option FileNode
  | .within names => files.node? names
  | .outside => some .directory

def enter (place : Place) (name : Path) : Except ReadError Place :=
  match files.at? place with
  | none => .error .notFound
  | some (.file _) => .error .notDirectory
  | some .directory =>
      if name = Path.here || name = [] then .ok place
      else if name = Path.above then
        match place with
        | .within (first :: rest) => .ok (.within (first :: rest).dropLast)
        | _ => .ok .outside
      else match place with
        | .outside => .error .notFound
        | .within names =>
            if (files.node? (names ++ [name])).isSome then .ok (.within (names ++ [name]))
            else .error .notFound

/-- Follow a path. An empty name changes nothing, but only a directory can have one. -/
def resolve (path : Path) : Except ReadError Place :=
  match path with
  | [] => .error .notFound
  | first :: _ =>
      let start := if first = Path.slash then Place.outside else .within []
      path.names.foldlM files.enter start

def readText (path : Path) : Except ReadError String := do
  match files.at? (← files.resolve path) with
  | some (.file contents) =>
      match Text.text? contents with
      | some text => .ok text
      | none => .error .notText
  | some .directory => .error .isDirectory
  | none => .error .notFound

end Files

end Leasehold
