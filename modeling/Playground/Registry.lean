import Playground.Site
/-!
Registries of packages: every name stands for the package that was registered under it last.
-/

namespace Playground

/-- Packages by name, one for each name. -/
structure Registry where
  entries : List (String × PackageId)
deriving DecidableEq, Repr

namespace Registry

/-- The registry without packages. -/
def empty : Registry := ⟨[]⟩

/-- The package with a name. -/
def find? (r : Registry) (name : String) : Option PackageId :=
  (r.entries.find? (·.1 == name)).map (·.2)

/-- The package with a name, or the failure to find it. -/
def find (r : Registry) (name : String) : Except PackageError PackageId :=
  match r.find? name with
  | some id => .ok id
  | none => .error (.notFound name)

/-- Registers a package and gives the one that it replaces. -/
def register (r : Registry) (name : String) (id : PackageId) : Registry × Option PackageId :=
  (⟨r.entries.filter (·.1 != name) ++ [(name, id)]⟩, r.find? name)

/-- The registered names in byte order. -/
def names (r : Registry) : List String :=
  (r.entries.map (·.1)).mergeSort fun a b => decide (a ≤ b)

end Registry

/-- A site whose packages are registered. -/
structure Depot where
  site : Site
  registry : Registry

namespace Depot

/-- The registered package with a name. -/
def find (d : Depot) (name : String) : Except PackageError (PackageId × Package) := do
  let id ← d.registry.find name
  match d.site.package? id with
  | some p => return (id, p)
  | none => throw (.notFound name)

/-- Adds a package and registers it. Gives the package that it replaces. -/
def register (d : Depot) (p : Package) : Depot × Option Package :=
  let (site, id) := d.site.addPackage p
  let (registry, replaced) := d.registry.register p.name id
  (⟨site, registry⟩, replaced.bind site.package?)

/-- Asks for a new build of a registered package at the next demand. Gives whether that is accepted.
-/
def invalidate (d : Depot) (name : String) : Except PackageError (Depot × Bool) := do
  let (id, p) ← d.find name
  let (site, accepted) := d.site.invalidate id p
  return ({ d with site }, accepted)

end Depot

end Playground
