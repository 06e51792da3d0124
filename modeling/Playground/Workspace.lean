import Playground.BufferId
import Playground.Language
/-!
Workspaces: the files of a program, the buffers being edited, and the settings for compiling them.
A workspace is a value; every change gives a new one. Files are keyed by normalised name and buffers
by id: a change to an existing key keeps its place, a new key goes to the end.
-/

namespace Playground

/-- A file of a workspace. -/
structure SourceFile where
  name : String
  text : String
deriving DecidableEq, Repr, Inhabited

/-- Whether the file is the one that `name` denotes. -/
def SourceFile.isNamed (file : SourceFile) (name : String) : Bool :=
  FileName.same file.name name

/-- A buffer: the edited text of a file or region, and the cursor in it. -/
structure Buffer where
  id : BufferId
  content : String
  position : Nat
deriving DecidableEq, Repr, Inhabited

/-- Files, buffers and settings of one program. -/
structure Workspace where
  files : List SourceFile
  buffers : List Buffer
  usings : List String
  workspaceType : String
  language : Language
  includeInstrumentation : Bool
deriving DecidableEq, Repr

/-- Puts `a` in place of the first element that satisfies `p`, or at the end. -/
def upsert {α : Type} (p : α → Bool) (a : α) : List α → List α
  | [] => [a]
  | x :: xs => if p x then a :: xs else x :: upsert p a xs

namespace Workspace

/-- The workspace type of a workspace that names none. -/
def defaultType : String := "script"

/-- The empty workspace of a type. -/
def new (workspaceType : String) : Workspace :=
  ⟨[], [], [], workspaceType, .csharp, false⟩

instance : Inhabited Workspace := ⟨new defaultType⟩

/-- The file that `name` denotes. -/
def file? (w : Workspace) (name : String) : Option SourceFile :=
  w.files.find? (·.isNamed name)

/-- The buffer with the given id. -/
def buffer? (w : Workspace) (id : BufferId) : Option Buffer :=
  w.buffers.find? (·.id == id)

/-- Sets a file. -/
def withFile (w : Workspace) (file : SourceFile) : Workspace :=
  { w with files := upsert (·.isNamed file.name) file w.files }

/-- Drops a file. -/
def withoutFile (w : Workspace) (name : String) : Workspace :=
  { w with files := w.files.filter (!·.isNamed name) }

/-- Replaces all files. -/
def withFiles (w : Workspace) (files : List SourceFile) : Workspace :=
  { w with files }

/-- Sets a buffer. -/
def withBuffer (w : Workspace) (buffer : Buffer) : Workspace :=
  { w with buffers := upsert (·.id == buffer.id) buffer w.buffers }

/-- Drops a buffer. -/
def withoutBuffer (w : Workspace) (id : BufferId) : Workspace :=
  { w with buffers := w.buffers.filter (!·.id == id) }

/-- Replaces the usings. -/
def withUsings (w : Workspace) (usings : List String) : Workspace :=
  { w with usings }

/-- Changes the language. -/
def withLanguage (w : Workspace) (language : Language) : Workspace :=
  { w with language }

/-- Switches instrumentation on or off. -/
def withInstrumentation (w : Workspace) (includeInstrumentation : Bool) : Workspace :=
  { w with includeInstrumentation }

end Workspace

end Playground
