import Dis.Text.Blank
import Dis.Text.Quoted
import Dis.Text.Utf8
/-!
# Paths and files

A `Path` is a path as it prints: `.` parts and doubled or trailing slashes are gone, `..` parts
stay. `Files` is a tree of folders and documents with a working folder and a home; a path is
followed part by part, so that a missing folder, a document in the place of a folder and a name
that is too long are told apart.

Text documents are read as UTF-8 with every line ending made a line feed, and written as they are.
-/
namespace Dis

/-- A path: its root (empty, one slash, or two) and its parts. -/
structure Path where
  root : String
  parts : List String
  deriving DecidableEq, Repr

namespace Path

/-- The pieces of a text between slashes, `piece` being the one under way, last character first. -/
def piecesFrom (piece : List Char) : List Char → List String
  | [] => [String.ofList piece.reverse]
  | c :: cs =>
    if c = '/' then String.ofList piece.reverse :: piecesFrom [] cs else piecesFrom (c :: piece) cs

/-- The root of a path text: two slashes stay two, any other number counts as one. -/
def rootOf (cs : List Char) : String :=
  match (cs.takeWhile (· = '/')).length with
  | 0 => ""
  | 2 => "//"
  | _ => "/"

/-- The path a text writes. -/
def ofText (s : String) : Path :=
  let cs := s.toList
  ⟨rootOf cs, (piecesFrom [] cs).filter fun p => p ≠ "" && p ≠ "."⟩

/-- A path as text. -/
def text (p : Path) : String :=
  if p.root = "" && p.parts.isEmpty then "." else p.root ++ "/".intercalate p.parts

/-- The path of the folder a path lies in; a path without parts is its own. -/
def parent (p : Path) : Path :=
  { p with parts := p.parts.dropLast }

/-- A path inside a folder. -/
def child (p : Path) (name : String) : Path :=
  { p with parts := p.parts ++ [name] }

end Path

/-- A place in a tree: the names on the way from the root. -/
abbrev Location := List String

/-- A folder with what it holds by name, or a document. -/
inductive Node
  | folder (entries : List (String × Node))
  | document (bytes : List UInt8)

namespace Node

/-- What a folder holds; a document holds nothing. -/
def entries : Node → List (String × Node)
  | folder entries => entries
  | document _ => []

/-- What a folder holds under a name. -/
def entry? (n : Node) (name : String) : Option Node :=
  (n.entries.find? (·.1 = name)).map (·.2)

/-- A folder with something under a name, in the place of what was there. -/
def setEntry (n : Node) (name : String) (inner : Node) : Node :=
  folder (n.entries.filter (·.1 ≠ name) ++ [(name, inner)])

/-- Change what lies at a location; what is missing on the way is made an empty folder. -/
def modify (n : Node) (loc : Location) (change : Node → Node) : Node :=
  match loc with
  | [] => change n
  | name :: rest => n.setEntry name (((n.entry? name).getD (folder [])).modify rest change)

end Node

/-- What can be wrong with a location. -/
inductive Trouble
  | missing
  | present
  | notFolder
  | isFolder
  | tooLong
  deriving DecidableEq, Repr

/-- The number of a trouble. -/
def Trouble.number : Trouble → Nat
  | .missing => 2
  | .present => 17
  | .notFolder => 20
  | .isFolder => 21
  | .tooLong => 36

/-- The wording of a trouble. -/
def Trouble.message : Trouble → String
  | .missing => "No such file or directory"
  | .present => "File exists"
  | .notFolder => "Not a directory"
  | .isFolder => "Is a directory"
  | .tooLong => "File name too long"

/-- A trouble and the path it arose with. -/
structure FileError where
  trouble : Trouble
  path : String
  deriving DecidableEq, Repr

/-- The wording of a file error. -/
def FileError.message (e : FileError) : String :=
  s!"[Errno {e.trouble.number}] {e.trouble.message}: {Text.quote e.path}"

/-- Why a text document cannot be read or written. -/
inductive DocumentError
  | file (e : FileError)
  /-- The path has a NUL character. -/
  | nulInPath
  /-- The path starts with the home of somebody unknown. -/
  | noHome
  | encoding (e : Utf8.DecodeError)
  /-- Too many folders are missing on the way. -/
  | tooDeep
  deriving DecidableEq, Repr

/-- The wording of a document error. -/
def DocumentError.message : DocumentError → String
  | file e => e.message
  | nulInPath => "embedded null byte"
  | noHome => "Could not determine home directory."
  | encoding e => e.message
  | tooDeep => "maximum recursion depth exceeded while calling a Python object"

/-- A tree of folders and documents. -/
structure Files where
  root : Node
  here : Location                       -- the working folder
  home : Path
  homes : List (String × Path) := []    -- of other users, by name

namespace Files

/-- Put something at a location, in the place of what was there. -/
def put (f : Files) (loc : Location) (n : Node) : Files :=
  { f with root := f.root.modify loc fun _ => n }

/-- Make a location a folder; one that is there keeps what it holds. -/
def putFolder (f : Files) (loc : Location) : Files :=
  { f with root := f.root.modify loc fun n => .folder n.entries }

/-- A tree that holds only a working folder, which is also the home. -/
def fresh (here : Location) : Files :=
  ({ root := .folder [], here, home := ⟨"/", here⟩ } : Files).putFolder here

/-- The most bytes of one name. -/
def nameLimit : Nat := 255

/-- The most bytes of a path. -/
def pathLimit : Nat := 4095

/-- The way down to a node: the names taken with the folders they were taken in, last first. -/
abbrev Trail := List (String × Node)

/-- Follow parts from a node; `..` goes back along the trail, and at the root stays there. -/
def walk (trail : Trail) (node : Node) : List String → Except Trouble (Location × Node)
  | [] => .ok ((trail.map (·.1)).reverse, node)
  | part :: parts => match node with
    | .document _ => .error .notFolder
    | .folder _ =>
      if nameLimit < part.utf8ByteSize then .error .tooLong
      else if part = ".." then match trail with
        | [] => walk [] node parts
        | (_, above) :: trail => walk trail above parts
      else match node.entry? part with
        | none => .error .missing
        | some inner => walk ((part, node) :: trail) inner parts

/-- Where the parts of a path are followed from. -/
def start (f : Files) (p : Path) : Location :=
  if p.root = "" then f.here else []

/-- What the parts of a path lead to. -/
def follow (f : Files) (p : Path) : Except Trouble (Location × Node) :=
  walk [] f.root (f.start p ++ p.parts)

/-- What a path leads to. -/
def resolve (f : Files) (p : Path) : Except Trouble (Location × Node) :=
  if pathLimit < p.text.utf8ByteSize then .error .tooLong else f.follow p

/-- Whether a path leads to a folder. -/
def isFolder (f : Files) (p : Path) : Bool :=
  match f.resolve p with
  | .ok (_, .folder _) => true
  | _ => false

/-- The home of a user, if it is known; the empty name stands for whoever works here. A name with a
NUL character cannot be asked for. -/
def homeOf (f : Files) (name : List Char) : Except DocumentError (Option Path) :=
  if name.isEmpty then .ok (some f.home)
  else if name.contains (Char.ofNat 0) then .error .nulInPath
  else .ok ((f.homes.find? (·.1.toList = name)).map (·.2))

/-- A path with `~` and the name of a user in front replaced by the home. -/
def expandHome (f : Files) (p : Path) : Except DocumentError Path :=
  match p.root, p.parts with
  | "", first :: rest => match first.toList with
    | '~' :: name => match f.homeOf name with
      | .error e => .error e
      | .ok none => .error .noHome
      | .ok (some home) => .ok { home with parts := home.parts ++ rest }
    | _ => .ok p
  | _, _ => .ok p

/-- The bytes of the document at a path, if there is one. -/
def bytes? (f : Files) (p : Path) : Option (List UInt8) :=
  match f.resolve p with
  | .ok (_, .document bytes) => some bytes
  | _ => none

/-- Whether a path can be handed to the system. -/
def checkPath (p : Path) : Except DocumentError Unit :=
  if p.text.toList.contains (Char.ofNat 0) then .error .nulInPath else .ok ()

/-- The text of a document. -/
def readText (f : Files) (p : Path) : Except DocumentError String := do
  checkPath p
  match f.resolve p with
  | .error t => .error (.file ⟨t, p.text⟩)
  | .ok (_, .folder _) => .error (.file ⟨.isFolder, p.text⟩)
  | .ok (_, .document bytes) =>
    let cs ← (Utf8.decode bytes).mapError .encoding
    .ok (String.ofList (Text.unifyNewlines cs))

/-- Make one folder in a folder that has to be there. -/
def makeFolder (f : Files) (p : Path) : Except Trouble Files :=
  if pathLimit < p.text.utf8ByteSize then .error .tooLong
  else match p.parts.getLast? with
    | none => .error .present
    | some last =>
      match f.resolve p.parent with
      | .error t => .error t
      | .ok (_, .document _) => .error .notFolder
      | .ok (loc, node) =>
        if nameLimit < last.utf8ByteSize then .error .tooLong
        else if last = ".." || (node.entry? last).isSome then .error .present
        else .ok (f.putFolder (loc ++ [last]))

/-- What remains of a trouble in making a folder when it may be there already. -/
def settle (f : Files) (p : Path) (t : Trouble) : Option DocumentError :=
  if t ≠ .missing && f.isFolder p then none else some (.file ⟨t, p.text⟩)

/-- Make a folder that may be there already, in a folder that has to be there. -/
def ensureFolder (f : Files) (p : Path) : Files × Option DocumentError :=
  match f.makeFolder p with
  | .ok f => (f, none)
  | .error t => (f, f.settle p t)

/-- The most folders that are made at once, one in the other. -/
def nestingLimit : Nat := 980

/-- Make a folder and at most `depth` folders on the way to it, unless they are there. What was
made before a trouble stays. -/
def makeFolders (f : Files) : Nat → Path → Files × Option DocumentError
  | 0, _ => (f, some .tooDeep)
  | depth + 1, p => match f.makeFolder p with
    | .ok f => (f, none)
    | .error .missing =>
      if p.parts.isEmpty then (f, some (.file ⟨.missing, p.text⟩))
      else match f.makeFolders depth p.parent with
        | (f, some e) => (f, some e)
        | (f, none) => f.ensureFolder p
    | .error t => (f, f.settle p t)

/-- Write a document into a folder that has to be there. -/
def writeBytes (f : Files) (p : Path) (bytes : List UInt8) : Except FileError Files :=
  match f.resolve p with
  | .ok (_, .folder _) => .error ⟨.isFolder, p.text⟩
  | .ok (loc, .document _) => .ok (f.put loc (.document bytes))
  | .error .missing =>
    match p.parts.getLast?, f.resolve p.parent with
    | some last, .ok (loc, .folder _) => .ok (f.put (loc ++ [last]) (.document bytes))
    | _, _ => .error ⟨.missing, p.text⟩
  | .error t => .error ⟨t, p.text⟩

/-- Write a text document into a folder that has to be there. -/
def writeText (f : Files) (p : Path) (s : String) : Except FileError Files :=
  f.writeBytes p (Utf8.encode s.toList)

/-- Put something at a path, with the folders on the way, as far as that goes. -/
def seed (f : Files) (p : Path) : Node → Files
  | .folder _ => (f.makeFolders (p.parts.length + 1) p).1
  | .document bytes =>
    let f := (f.makeFolders (p.parts.length + 1) p.parent).1
    (f.writeBytes p bytes).toOption.getD f

end Files
end Dis
