/-
  GraphScript.State.Folders — items gathered into folders, in one walk over the list.

  A folder is open from its item on. An item that names the open folder as its own becomes a child.
  Any other item stands by itself; it closes the open folder unless it has the folder's own id, and
  a folder always closes the one before. A closed folder is never opened again.

  The walk keeps a log of what opened and closed. It stops at the first item that cannot be
  translated; the log then ends there, with the folder that is open at that point.
-/
import GraphScript.State.Item

namespace GraphScript

inductive Event where
  | opened (id : Json)
  | closed (id : Json) (children : Nat)
  | translated (items lines : Nat)
  deriving DecidableEq

def Event.message : Event → String
  | .opened id => "Opened folder " ++ id.display
  | .closed id children => "Closed folder " ++ id.display ++ " with " ++ toString children ++ " child(ren)"
  | .translated items lines =>
    "Translated " ++ toString items ++ " item(s) into " ++ toString lines ++ " line(s)"

/-- What a piece of work logged, and how it ended. -/
structure Outcome (α : Type) where
  log : List Event
  result : Except Fault α

/-- A translated item with the ids that decide where it stands. -/
structure Entry where
  id : Json
  folderId : Json
  item : Item Affix

def Entry.ofJson (j : Json) : Except Fault Entry := do
  let item ← Item.ofJson j
  let fs ← j.fields
  return ⟨fs.get "id", fs.get "folderId", item⟩

/-- The folder that is open, its children so far, and the lines that stand after it. -/
structure OpenFolder where
  id : Json
  item : Item Folder
  children : List (Item Leaf)
  after : List Line

def OpenFolder.lines (o : OpenFolder) : List Line :=
  .item { o.item with affix := .folder { o.item.affix with children := o.children } } :: o.after

structure Walk where
  /-- The lines before the open folder. -/
  lines : List Line
  opened : Option OpenFolder
  log : List Event

namespace Walk

def start : Walk := ⟨[], none, []⟩

def close (w : Walk) : Walk :=
  match w.opened with
  | none => w
  | some o => ⟨w.lines ++ o.lines, none, w.log ++ [.closed o.id o.children.length]⟩

def addLine (w : Walk) (i : Item Affix) : Walk := { w with lines := w.lines ++ [.item i] }

def openFolder (w : Walk) (id : Json) (i : Item Folder) : Walk :=
  { w with opened := some ⟨id, i, [], []⟩, log := w.log ++ [.opened id] }

def step (w : Walk) (e : Entry) : Walk :=
  match e.item.affix, w.opened with
  | .folder f, _ => w.close.openFolder e.id { e.item with affix := f }
  | .leaf _, none => w.addLine e.item
  | .leaf l, some o =>
    if e.folderId.equals o.id then
      { w with opened := some { o with children := o.children ++ [{ e.item with affix := l }] } }
    else if e.id.equals o.id then { w with opened := some { o with after := o.after ++ [.item e.item] } }
    else w.close.addLine e.item

/-- Walks over the items up to the end or to the first that cannot be translated. -/
def run (w : Walk) : List Json → Outcome (List Line)
  | [] => ⟨w.close.log, .ok w.close.lines⟩
  | j :: rest =>
    match Entry.ofJson j with
    | .ok e => (w.step e).run rest
    | .error fault => ⟨w.log, .error fault⟩

end Walk

def foldersOf (items : List Json) : Outcome (List Line) := Walk.start.run items

end GraphScript
