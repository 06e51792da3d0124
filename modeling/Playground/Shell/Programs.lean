import Playground.Shell.Programs.Files
import Playground.Shell.Programs.Text
/-!
The programs that are there to be run, and the files that they are run from. The file of a program
holds its name behind a mark, so that a copy of it is the same program.
-/

namespace Playground.Shell.Programs

/-- The programs that need no shell, by name. -/
def table : List (String × Program) :=
  [("true", fun _ => return 0), ("false", fun _ => return 1), ("cat", cat), ("mkdir", mkdir),
    ("touch", touch), ("rm", rm), ("rmdir", rmdir), ("cp", cp), ("mv", mv), ("ln", ln), ("ls", ls),
    ("chmod", chmod), ("head", head), ("tail", tail), ("wc", wc), ("seq", seq), ("sort", sort),
    ("uniq", uniq), ("tr", tr), ("cut", cut), ("basename", basename), ("dirname", dirname),
    ("tee", tee), ("echo", echo), ("sleep", sleep),
    ("pwd", fun _ => do
      print (Narrow.narrow ("/" ++ "/".intercalate (← tree).workDir) ++ "\n")
      return 0)]

/-- The names of the shell. -/
def shellNames : List String :=
  ["sh", "dash"]

/-- The names of all programs. -/
def names : List String :=
  shellNames ++ "env" :: table.map (·.1)

/-- The mark at the start of the files of programs. -/
def mark : List UInt8 :=
  [0x7F, 0x45, 0x4C, 0x46]

/-- The bytes of the file of a program. -/
def content (name : String) : List UInt8 :=
  mark ++ Text.Utf8.encode name

/-- What a file is that can be run. -/
inductive Kind where
  | program (name : String)
  /-- A text for another program, with an argument for it. -/
  | script (interpreter : String) (argument : Option String)
  /-- A text for the shell. -/
  | text

/-- What the bytes of a file are to be run as. -/
def kind (bytes : List UInt8) : Kind :=
  if mark.isPrefixOf bytes then .program (Narrow.ofBytes (bytes.drop mark.length))
  else match (Narrow.ofBytes (bytes.takeWhile (· != 10))).toList with
    | '#' :: '!' :: line =>
        let isBlank := fun c => c == ' ' || c == '\t'
        let line := line.dropWhile isBlank
        let argument := (line.dropWhile fun c => !isBlank c).dropWhile isBlank
        let argument := (argument.reverse.dropWhile isBlank).reverse
        .script (String.ofList (line.takeWhile fun c => !isBlank c))
          (if argument.isEmpty then none else some (String.ofList argument))
    | _ => .text

/-- The places of the directories around the working directory. -/
def places : List Place :=
  [["usr"], ["usr", "bin"], ["tmp"], ["dev"], ["etc"], ["root"], ["home"], ["var"], ["proc"]]

/-- A file tree with the programs in their places, and the numbers of their files. -/
def install (t : FileTree) : FileTree × List Nat :=
  let t := places.foldl (fun t p => t.put p .directory) t
  let t := t.put ["bin"] (.link "usr/bin")
  names.foldl (fun (t, numbers) name =>
    let n := t.nextNumber
    ({ t.put ["usr", "bin", name] (.file n (content name)) with nextNumber := n + 1 },
      n :: numbers)) (t, [])

/-- A file tree without the programs and the directories around the working directory. -/
def remove (t : FileTree) : FileTree :=
  (["bin"] :: places).foldl FileTree.prune t

end Playground.Shell.Programs
