import Playground.Text.Utf8
/-!
Narrow texts: texts whose characters stand for single bytes. A shell measures, splits and compares
bytes, so its words are narrow; names of files are wide.
-/

namespace Playground.Shell.Narrow

/-- The narrow text of some bytes. -/
def ofBytes (bytes : List UInt8) : String :=
  String.ofList (bytes.map fun b => Char.ofNat b.toNat)

/-- The bytes of a narrow text. -/
def toBytes (s : String) : List UInt8 :=
  s.toList.map fun c => c.toNat.toUInt8

/-- The narrow text of a wide one. -/
def narrow (s : String) : String :=
  ofBytes (Text.Utf8.encode s)

/-- The wide text of a narrow one. -/
def widen (s : String) : String :=
  String.ofList (Text.Utf8.decodeLossy (toBytes s))

end Playground.Shell.Narrow
