import Dis.Files
import Dis.Log
/-!
# Command history

The lines entered in earlier sessions, kept in a text file with one entry a line. Entries are
trimmed, blank ones and immediate repetitions are not kept, and only the last `limit` stay. The
file is written anew after every entry added; trouble with it is logged and otherwise ignored, and
the folders made on the way to it stay. Only folders too deep to be made break the writing off; the
entry has then been added all the same.
-/
namespace Dis.Debugger

/-- The history of a session.
mirrors `HistoryStore` -/
structure History where
  limit : Nat
  path : Option Path
  entries : List String    -- oldest first

/-- Why a history cannot be opened. -/
inductive HistoryError
  | limit (e : Value.ConversionError)
  | document (e : DocumentError)

namespace History

/-- The last `n` elements of a list. -/
def lastOf {α : Type} (n : Nat) (xs : List α) : List α :=
  xs.drop (xs.length - n)

/-- The number of entries kept unless a setting says otherwise. -/
def defaultLimit : Nat := 1000

/-- The limit a setting asks for: one at least, and one if none is given. -/
def limitOf (setting : Value) : Except Value.ConversionError Nat :=
  if setting.isGiven then setting.toInt.map fun n => (max 1 n).toNat else .ok 1

/-- The entries of a history file: its lines trimmed, without the blank ones. -/
def entriesOf (contents : String) : List String :=
  ((Text.lines contents.toList).map Text.trim).filter (!·.isEmpty) |>.map String.ofList

/-- The entries a file holds to begin with, and what is logged about it. A missing file is an empty
history.
mirrors `HistoryStore._load` -/
def load (files : Files) (limit : Nat) (path : Path) :
    Except DocumentError (List String × Array Event) :=
  match files.readText path with
  | .ok contents => .ok (lastOf limit (entriesOf contents), #[])
  | .error (.file e) =>
    if e.trouble = .missing then .ok ([], #[])
    else .ok ([], #[.log (.historyUnread path.text e.message)])
  | .error e => .error e

/-- Open the history at a path, if there is one. -/
def openWith (files : Files) (path : Option String) (limit : Nat) :
    Except DocumentError (History × Array Event) := do
  match path.filter (!·.isEmpty) with
  | none => .ok (⟨limit, none, []⟩, #[])
  | some text =>
    let path ← files.expandHome (Path.ofText text)
    let (entries, events) ← load files limit path
    .ok (⟨limit, some path, entries⟩, events)

/-- Open the history at a path with the limit a setting asks for.
mirrors `HistoryStore.__init__` -/
def openAt (files : Files) (path : Option String) (setting : Value) :
    Except HistoryError (History × Array Event) := do
  let limit ← (limitOf setting).mapError .limit
  (openWith files path limit).mapError .document

/-- Whether a line is kept behind the entries: it is not blank and not the last of them again. -/
def accepts (entries : List String) (line : String) : Bool :=
  let entry := Text.trimmed line
  !entry.isEmpty && entries.getLast? ≠ some entry

/-- The entries after a line is added. -/
def addEntry (limit : Nat) (entries : List String) (line : String) : List String :=
  if accepts entries line then lastOf limit (entries ++ [Text.trimmed line]) else entries

/-- The text of a history file. -/
def contents (entries : List String) : String :=
  "\n".intercalate entries ++ "\n"

/-- Write the history to its file.
mirrors `HistoryStore._persist` -/
def persist (h : History) (files : Files) : Except DocumentError (Files × Array Event) :=
  match h.path with
  | none => .ok (files, #[])
  | some path =>
    let trouble (e : FileError) : Array Event := #[.log (.historyUnwritten path.text e.message)]
    match files.makeFolders Files.nestingLimit path.parent with
    | (files, some (.file e)) => .ok (files, trouble e)
    | (_, some e) => .error e
    | (files, none) => match files.writeText path (contents h.entries) with
      | .error e => .ok (files, trouble e)
      | .ok files => .ok (files, #[])

/-- A history with a line added, whatever becomes of its file. -/
def added (h : History) (line : String) : History :=
  { h with entries := addEntry h.limit h.entries line }

/-- Add a line, and write the file if that changed the history: the history, changed also where
writing breaks off, and what became of the file.
mirrors `HistoryStore.append` -/
def store (h : History) (files : Files) (line : String) :
    History × Except DocumentError (Files × Array Event) :=
  if accepts h.entries line then (h.added line, (h.added line).persist files)
  else (h, .ok (files, #[]))

/-- Add a line for a host that ends where writing breaks off. -/
def append (h : History) (files : Files) (line : String) :
    Except DocumentError (History × Files × Array Event) :=
  match h.store files line with
  | (h, .ok (files, events)) => .ok (h, files, events)
  | (_, .error e) => .error e

end History
end Dis.Debugger
