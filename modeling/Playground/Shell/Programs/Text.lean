import Playground.Shell.Format
import Playground.Shell.Pattern
import Playground.Shell.Program
import Playground.Text.Split
/-!
Programs that work on texts: they pass them on, cut, count, sort and change them.
-/

namespace Playground.Shell.Programs

open Program

/-- Does something with the text of each operand, or of the input if there is none. -/
def forEachInput (operands : List String) (act : String → String → Act Unit) :
    Act Nat :=
  forEach (fun operand => do
    match ← input operand with
    | .ok s => do
        act operand s
        return true
    | .error why => do
        complain (shown operand ++ ": " ++ why)
        return false) (if operands.isEmpty then ["-"] else operands)

/-- Whether an operand is the file that the output goes to, beyond its start. -/
def isOutput (operand : String) : Act Bool := do
  let p ← get
  match (p.fileOf? 1).bind fun i => p.world.opened[i]?,
      p.world.tree.look true (Narrow.widen operand) with
  | some { channel := .file n, offset, appends, .. }, .ok (_, .file m bytes) =>
      return n = m && 0 < (if appends then bytes.length else offset)
  | _, _ => return false

/-- Lines with their numbers, from one on. -/
def numbered (skipsEmpty : Bool) : Nat → List String → List String
  | _, [] => []
  | n, line :: rest =>
      if skipsEmpty && line.isEmpty then line :: numbered skipsEmpty n rest
      else
        let digits := toString n
        (String.ofList (List.replicate (6 - digits.length) ' ') ++ digits ++ "\t" ++ line) ::
          numbered skipsEmpty (n + 1) rest

/-- Passes texts on. -/
def cat : Program :=
  let usage : Usage := ⟨"AbeEnstTuv", [("number", 'n'), ("show-ends", 'E')], 1⟩
  ofUsage usage fun a =>
    forEach (fun operand => do
      if operand ≠ "-" && (← isOutput operand) then
        complain (shown operand ++ ": input file is output file")
        return false
      match ← input operand with
      | .error why => do
          complain (shown operand ++ ": " ++ why)
          if operand = "-" && ((← get).fileOf? 0).isNone then
            complain ("closing standard input: " ++ why)
          return false
      | .ok s => do
          if a.options.isEmpty || !(a.has 'n' || a.has 'b' || a.has 'E') then print s
          else
            let lines := linesOf s
            let lines := if a.has 'E' then lines.map (· ++ "$") else lines
            printLines (if a.has 'n' || a.has 'b' then numbered (a.has 'b') 1 lines else lines)
          return true) (if a.operands.isEmpty then ["-"] else a.operands)

/-- The first of the old forms of a number of lines, as an option. -/
def withLetter (arguments : List String) : List String :=
  match arguments with
  | first :: rest =>
      match first.toList with
      | '-' :: c :: cs => if c.isDigit then "-n" :: String.ofList (c :: cs) :: rest else arguments
      | _ => arguments
  | [] => []

/-- A text as its lines, each with its end. -/
def wholeLines (s : String) : List String :=
  let lines := linesOf s
  if s.toList.getLast? = some '\n' then lines.map (· ++ "\n")
  else (lines.dropLast.map (· ++ "\n")) ++ lines.drop (lines.length - 1)

/-- The units that `head` and `tail` count in: lines, or bytes. -/
def units (isBytes : Bool) (s : String) : List String :=
  if isBytes then s.toList.map Char.toString else wholeLines s

/-- The head line of an operand. -/
def title (operand : String) : String :=
  "==> " ++ (if operand = "-" then "standard input" else operand) ++ " <==\n"

/-- Passes on a part of each text. -/
def partOf (cut : Bool → Bool → Nat → List String → List String) : Program :=
  fun arguments =>
    let usage : Usage := ⟨"c:n:qvfs:", [("quiet", 'q'), ("verbose", 'v')], 1⟩
    ofUsage usage (fun a => do
      let isBytes := a.has 'c'
      let amount := ((a.get? 'c') <|> a.get? 'n').getD "10"
      let isMarked := amount.startsWith "-" || amount.startsWith "+"
      let digits := if isMarked then (amount.drop 1).toString else amount
      match digits.toNat? with
      | none => do
          complain ("invalid number of " ++ (if isBytes then "bytes" else "lines") ++ ": " ++
            named amount)
          return 1
      | some n => do
          let hasTitles := (1 < a.operands.length || a.has 'v') && !a.has 'q'
          let first := a.operands.head?
          forEachInput a.operands fun operand s => do
            if hasTitles then
              print ((if some operand = first then "" else "\n") ++ title operand)
            let isUp := amount.startsWith "+"
            let isDown := amount.startsWith "-"
            print (String.join (cut isUp isDown n (units isBytes s)))) (withLetter arguments)

/-- Passes on the start of each text. -/
def head : Program :=
  partOf fun _ isDown n units =>
    units.take (if isDown then units.length - n else n)

/-- Passes on the end of each text. -/
def tail : Program :=
  partOf fun isUp _ n units =>
    units.drop (if isUp then n - 1 else units.length - n)

/-- The number of words in a text. -/
def wordCount (cs : List Char) : Nat :=
  (cs.foldl (fun (state : Nat × Bool) c =>
    if isSpace c then (state.1, false)
    else (if state.2 then state.1 else state.1 + 1, true)) (0, false)).1

/-- Counts lines, words and bytes. -/
def wc : Program :=
  let usage : Usage := ⟨"clmwL", [("lines", 'l'), ("words", 'w'), ("bytes", 'c')], 1⟩
  ofUsage usage fun a => do
    let all := !(a.has 'l' || a.has 'w' || a.has 'c' || a.has 'm')
    let counts (s : String) : List Nat :=
      let cs := s.toList
      (if all || a.has 'l' then [cs.count '\n'] else []) ++
        (if all || a.has 'w' then [wordCount cs] else []) ++
        (if all || a.has 'c' || a.has 'm' then [cs.length] else [])
    let p ← get
    let fromFile := (p.fileOf? 0).any fun i => (p.world.opened[i]?).any fun o =>
      match o.channel with
      | .file _ => true
      | _ => false
    let t := p.world.tree
    let sizes := a.operands.map fun o =>
      match t.read (Narrow.widen o) with
      | .ok bytes => bytes.length
      | .error _ => 0
    let columns := (counts "").length
    let size := match a.operands with
      | [] =>
          if fromFile then
            ((p.fileOf? 0).bind p.world.unread).elim 0 List.length
          else 0
      | _ => sizes.foldl (· + ·) 0
    let width :=
      if a.operands.length ≤ 1 && columns = 1 then 1
      else if a.operands.isEmpty && !fromFile then 7
      else (toString size).length
    let row (ns : List Nat) (label : String) : String :=
      " ".intercalate (ns.map fun n =>
        let digits := toString n
        String.ofList (List.replicate (width - digits.length) ' ') ++ digits) ++
        (if label.isEmpty then "" else " " ++ label) ++ "\n"
    let status ← forEachInput a.operands fun operand s => do
      print (row (counts s) (if a.operands.isEmpty then "" else operand))
    if 1 < a.operands.length then
      let totals := a.operands.foldl (fun sums o =>
        match t.read (Narrow.widen o) with
        | .ok bytes => List.zipWith (· + ·) sums (counts (Narrow.ofBytes bytes))
        | .error _ => sums) (List.replicate columns 0)
      print (row totals "total")
    return status

/-- Counts from one number to another. -/
def seq : Program := fun arguments => do
  let (separator, arguments) := match arguments with
    | "-s" :: s :: rest => (s, rest)
    | first :: rest =>
        if first.startsWith "-s" then ((first.drop 2).toString, rest) else ("\n", arguments)
    | [] => ("\n", [])
  match arguments.mapM decimal? with
  | none => do
      let bad := (arguments.find? fun a => (decimal? a).isNone).getD ""
      misused {} ("invalid floating point argument: " ++ named bad)
  | some numbers => do
      let range : Option (Int × Int × Int) := match numbers with
        | [last] => some (1, 1, last)
        | [first, last] => some (first, 1, last)
        | [first, step, last] => some (first, step, last)
        | _ => none
      match range with
      | none =>
          misused {} (if arguments.isEmpty then "missing operand"
            else "extra operand " ++ named ((arguments.drop 3).headD ""))
      | some (first, step, last) =>
          if step = 0 then
            misused {}
              ("invalid Zero increment value: " ++ named ((arguments.drop 1).headD ""))
          else
            let n := ((last - first).tdiv step + 1).toNat
            let isEmpty := if 0 < step then last < first else first < last
            if !isEmpty then
              let numbers := (List.range n).map fun i => toString (first + step * Int.ofNat i)
              print (separator.intercalate numbers ++ "\n")
            pure 0

/-- The number at the start of a line. -/
def leadingNumber (s : String) : Int :=
  (Numeral.read? false s.toList).elim 0 Numeral.value

/-- Sorts lines. -/
def sort : Program :=
  let usage : Usage := ⟨"bdfghik:mMno:rst:uV", [("reverse", 'r'), ("unique", 'u')], 2⟩
  ofUsage usage fun a => do
    let operands := if a.operands.isEmpty then ["-"] else a.operands
    let mut lines : List String := []
    for operand in operands do
      match ← input operand with
      | .ok s => lines := lines ++ linesOf s
      | .error why => do
          complain ("cannot read: " ++ shown operand ++ ": " ++ why)
          return 2
    let byNumber := a.has 'n'
    let before (x y : String) : Bool :=
      if byNumber then
        let m := leadingNumber x
        let n := leadingNumber y
        if m = n then a.has 'u' || decide (x ≤ y) else decide (m ≤ n)
      else decide (x ≤ y)
    let isSame (x y : String) : Bool :=
      if byNumber then leadingNumber x == leadingNumber y else x == y
    let sorted := if a.has 'r' then lines.mergeSort fun x y => before y x
      else lines.mergeSort before
    let sorted := if a.has 'u' then
        sorted.foldr (fun line kept =>
          match kept with
          | next :: rest => if isSame line next then line :: rest else line :: kept
          | [] => [line]) []
      else sorted
    printLines sorted
    return 0

/-- Passes on one line of each row of equal ones. -/
def uniq : Program :=
  let usage : Usage := ⟨"cdu", [("count", 'c'), ("repeated", 'd'), ("unique", 'u')], 1⟩
  ofUsage usage fun a => do
    match ← input (a.operands.headD "-") with
    | .error why => do
        complain (shown (a.operands.headD "-") ++ ": " ++ why)
        return 1
    | .ok s => do
        let rows : List (String × Nat) := (linesOf s).foldr (fun line rows =>
          match rows with
          | (next, n) :: rest => if line == next then (line, n + 1) :: rest else (line, 1) :: rows
          | [] => [(line, 1)]) []
        let rows := rows.filter fun (_, n) =>
          (!a.has 'd' || 1 < n) && (!a.has 'u' || n == 1)
        printLines (rows.map fun (line, n) =>
          if a.has 'c' then
            let digits := toString n
            String.ofList (List.replicate (7 - digits.length) ' ') ++ digits ++ " " ++ line
          else line)
        return 0

/-- The characters of a set, in which a dash stands for a range; at most `n` items. -/
def setChars : Nat → List Char → List Char
  | 0, _ => []
  | _ + 1, [] => []
  | n + 1, '\\' :: c :: rest =>
      let (d, used) := Format.escaped (c :: rest)
      if used = 0 then c :: setChars n rest
      else d :: setChars n ((c :: rest).drop used)
  | n + 1, '[' :: ':' :: rest =>
      match Pattern.class? ('[' :: ':' :: rest |>.drop 1 |>.map Pattern.open_) with
      | some (name, after) =>
          ((List.range 256).map Char.ofNat).filter (Pattern.inClass name) ++
            setChars n (after.map (·.char))
      | none => '[' :: setChars n (':' :: rest)
  | n + 1, a :: '-' :: b :: rest =>
      if a.toNat ≤ b.toNat then
        ((List.range (b.toNat - a.toNat + 1)).map fun i => Char.ofNat (a.toNat + i)) ++
          setChars n rest
      else a :: '-' :: b :: setChars n rest
  | n + 1, c :: rest => c :: setChars n rest

/-- Changes, removes or squeezes characters. -/
def tr : Program :=
  let usage : Usage := ⟨"cCdst", [("delete", 'd'), ("squeeze-repeats", 's')], 1⟩
  ofUsage usage fun a => do
    match a.operands with
    | [] => misused usage "missing operand"
    | first :: others => do
        if others.isEmpty && !a.has 'd' && !a.has 's' then
          complain ("missing operand after " ++ named first)
          writeTo 2 "Two strings must be given when translating.\n"
          writeTo 2 "Try 'tr --help' for more information.\n"
          return 1
        let set := setChars (first.length + 1) first.toList
        let set := if a.has 'c' || a.has 'C' then
            ((List.range 256).map Char.ofNat).filter fun c => !set.contains c
          else set
        let goal := (others.head?.map fun s => setChars (s.length + 1) s.toList).getD []
        let change (c : Char) : Char :=
          match set.idxOf? c, goal.getLast? with
          | some i, some last => (goal[i]?).getD last
          | _, _ => c
        match ← takeInput 0 with
        | .error why => do
            complain ("read error: " ++ why)
            return 1
        | .ok s => do
            let cs := s.toList
            let cs :=
              if a.has 'd' then cs.filter fun c => !set.contains c
              else if others.isEmpty then cs
              else cs.map change
            let squeezed := if others.isEmpty then set else goal
            let cs := if a.has 's' then
                cs.foldr (fun c rest =>
                  if rest.head? == some c && squeezed.contains c then rest else c :: rest) []
              else cs
            print (String.ofList cs)
            return 0

/-- The numbers of a list such as `1,3-5`, as ranges. -/
def ranges? (s : String) : Option (List (Nat × Option Nat)) :=
  (Text.splitAll (· == ',') s.toList).mapM fun part =>
    match Text.splitAll (· == '-') part with
    | [one] => do
        let n ← (String.ofList one).toNat?
        return (n, some n)
    | [low, high] =>
        let low := if low.isEmpty then some 1 else (String.ofList low).toNat?
        if high.isEmpty then low.map fun n => (n, none)
        else do return (← low, some (← (String.ofList high).toNat?))
    | _ => none

/-- Passes on some fields or characters of each line. -/
def cut : Program :=
  let usage : Usage := ⟨"b:c:d:f:ns", [("only-delimited", 's')], 1⟩
  ofUsage usage fun a => do
    match (a.get? 'f') <|> (a.get? 'c') <|> (a.get? 'b') with
    | none => misused usage "you must specify a list of bytes, characters, or fields"
    | some chosen =>
        match ranges? chosen with
        | none => misused usage ("invalid field value " ++ named chosen)
        | some ranges =>
            let isChosen (i : Nat) : Bool := ranges.any fun (low, high) =>
              low ≤ i + 1 && high.all fun n => i + 1 ≤ n
            let pick {α : Type} (xs : List α) : List α :=
              (xs.zipIdx.filter fun x => isChosen x.2).map (·.1)
            let separator := ((a.get? 'd').bind fun s => s.toList.head?).getD '\t'
            forEachInput a.operands fun _ s =>
              printLines ((linesOf s).filterMap fun line =>
                if !a.has 'f' then some (String.ofList (pick line.toList))
                else if !line.toList.contains separator then
                  if a.has 's' then none else some line
                else
                  let fields := Text.splitAll (· == separator) line.toList
                  some (String.ofList ([separator].intercalate (pick fields))))

/-- The last step of a path, without a given end. -/
def basename : Program := fun arguments => do
  let (withAll, suffix, operands) : Bool × String × List String := match arguments with
    | "-a" :: rest => (true, "", rest)
    | "-s" :: suffix :: rest => (true, suffix, rest)
    | "--" :: rest => (false, "", rest)
    | rest => (false, "", rest)
  let base (suffix path : String) : String :=
    let name := match (Path.withoutSlashes path) with
      | "/" => "/"
      | p => ((Path.segments p).getLast?).getD ""
    if name ≠ suffix ∧ name.endsWith suffix then
      String.ofList (name.toList.take (name.length - suffix.length))
    else name
  match withAll, operands with
  | _, [] => misused {} "missing operand"
  | true, operands => do
      printLines (operands.map (base suffix))
      return 0
  | false, [path] => do
      printLines [base "" path]
      return 0
  | false, [path, suffix] => do
      printLines [base suffix path]
      return 0
  | false, _ :: _ :: extra :: _ =>
      misused {} ("extra operand " ++ named extra)

/-- A path without its last step. -/
def parentOf (path : String) : String :=
  match (Path.withoutSlashes path).toList.reverse.dropWhile (· != '/') with
  | [] => if (Path.withoutSlashes path) = "/" then "/" else "."
  | cs =>
      match cs.dropWhile (· == '/') with
      | [] => "/"
      | cs => String.ofList cs.reverse

/-- Paths without their last steps. -/
def dirname : Program := fun arguments => do
  if arguments.isEmpty then misused {} "missing operand"
  else
    printLines (arguments.map parentOf)
    return 0

/-- Passes the input on to files, too. -/
def tee : Program :=
  ofUsage ⟨"aip", [("append", 'a')], 1⟩ fun a => do
    match ← takeInput 0 with
    | .error why => do
        complain ("read error: " ++ why)
        return 1
    | .ok s => do
        print s
        forEach (fun operand => do
          let path := Narrow.widen operand
          let bytes := Narrow.toBytes s
          let t ← tree
          let old := if a.has 'a' then (t.read path).toOption.getD [] else []
          match ← onTree (FileAction.write path (old ++ bytes)) with
          | .ok () => return true
          | .error e => do
              complain (shown operand ++ ": " ++ e.reason)
              return false) a.operands

/-- Prints its arguments. -/
def echo : Program := fun arguments => do
  let isOption (s : String) : Bool :=
    match s.toList with
    | '-' :: c :: cs => (c :: cs).all fun c => c == 'n' || c == 'e' || c == 'E'
    | _ => false
  let options := (arguments.takeWhile isOption).flatMap fun s => s.toList.drop 1
  let words := arguments.dropWhile isOption
  let line := " ".intercalate words
  let escapes := (options.reverse.find? fun c => c == 'e' || c == 'E') == some 'e'
  let (cs, isEnded) := if escapes then Format.unescape 0 line.toList else (line.toList, false)
  print (String.ofList cs ++ if options.contains 'n' || isEnded then "" else "\n")
  return 0

/-- How many nanoseconds an interval lasts. -/
def interval? (s : String) : Option Nat :=
  let cs := s.toList
  let seconds := match cs.getLast? with
    | some 's' => some 1
    | some 'm' => some 60
    | some 'h' => some 3600
    | some 'd' => some 86400
    | _ => none
  match Format.float? (if seconds.isSome then cs.dropLast else cs) with
  | some ⟨.finite false x, [], _⟩ =>
      let (num, den) := x.toFraction
      some (num * seconds.getD 1 * 1000000000 / den)
  | some ⟨.named false "inf", [], _⟩ => some 1000000000000000000
  | _ => none

/-- Lets time pass. -/
def sleep : Program := fun arguments => do
  if arguments.isEmpty then misused {} "missing operand"
  else
    match arguments.filter fun s => (interval? s).isNone with
    | [] => do
        let time := (arguments.filterMap interval?).foldl (· + ·) 0
        modify fun p => { p with world := { p.world with clock := p.world.clock + time } }
        return 0
    | bad => do
        for s in bad do complain ("invalid time interval " ++ named s)
        writeTo 2 "Try 'sleep --help' for more information.\n"
        return 1

end Playground.Shell.Programs
