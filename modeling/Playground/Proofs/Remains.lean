import Playground.Proofs.Files.Copy
import Playground.Proofs.Marker
/-!
# What a build leaves behind

A build leaves its entry point in the package directory, and a marker that tells of it.  From these a
later build has the artifact again.  They do not suffer from lock files that are opened, whoever knows
the directory by another name finds them too, and a copy of the directory holds them as well.
-/

namespace Playground

variable {t t' : FileTree} {directory source target rel : Path} {omitted : String}
  {builtAtMs n : Nat} {P q : Place} {bytes : List UInt8}

namespace Path

/-- The entry point that a marker names: the path as it is left when the directory is taken off. -/
def noted (directory rel : Path) : Path :=
  if directory = "" then rel else tidied rel

theorem below?_noted (hrel : isAbsolute rel = false) (hends : EndsInStep (segments rel))
    (directory : Path) : below? (directory.join rel) directory = some (noted directory rel) := by
  unfold noted
  split
  · rename_i hdir
    rw [hdir, join_empty, below?_empty hends]
  · rename_i hdir
    exact below?_join hdir hrel hends

/-- The path of the entry point that a marker names has the same steps as the one that was built. -/
theorem components_noted (hrel : isAbsolute rel = false) (hends : EndsInStep (segments rel))
    (directory : Path) :
    components (directory.join (noted directory rel)) = components (directory.join rel) := by
  unfold noted
  split
  · rfl
  · rename_i hdir
    exact components_join_tidied hdir hrel hends

end Path

namespace FileTree

/-! ## 1. Regular files -/

theorem isFile_iff {path : Path} :
    t.isFile path = true ↔ ∃ place n bytes, t.seek true path = .found place (.file n bytes) := by
  unfold isFile
  constructor
  · intro h
    split at h
    · rename_i place n bytes hlook
      exact ⟨place, n, bytes, look_eq_ok_iff.mp hlook⟩
    · cases h
  · rintro ⟨place, n, bytes, hseek⟩
    rw [look_eq_ok_iff.mpr hseek]

theorem isFile_iff_read {path : Path} : t.isFile path = true ↔ ∃ bytes, t.read path = .ok bytes := by
  simp only [isFile_iff, read_eq_ok_iff]
  constructor
  · rintro ⟨place, n, bytes, hseek⟩
    exact ⟨bytes, place, n, hseek⟩
  · rintro ⟨bytes, place, n, hseek⟩
    exact ⟨place, n, bytes, hseek⟩

/-- A file that is put where there is nothing, or a file, leaves regular files what they are. -/
theorem isFile_put {path : Path} (hq : q ≠ []) (h : ∀ e, t.entryAt? q = some e → e.isFile = true)
    (number : Nat) (hfile : t.isFile path = true) :
    FileTree.isFile { t.put q (.file n bytes) with nextNumber := number } path = true := by
  obtain ⟨place, m, old, hseek⟩ := isFile_iff.mp hfile
  have hold := entryAt?_of_seek hseek (by intro h; cases h)
  have hkeeps := keeps_put h (.file n bytes) number
  by_cases hplace : place = q
  · have hnew := entryAt?_put_self t (.file n bytes) hq
    exact isFile_iff.mpr ⟨place, n, bytes, seek_of_file hkeeps hseek rfl (hplace ▸ hnew) rfl⟩
  · have hnew := (entryAt?_put_of_ne t (.file n bytes) hplace).trans hold
    exact isFile_iff.mpr ⟨place, m, old, seek_of_file hkeeps hseek rfl hnew rfl⟩

theorem isFile_openFile {path other : Path} {result : Except FileError Nat}
    (h : (FileAction.openFile path).run t = (result, t')) (hfile : t.isFile other = true) :
    t'.isFile other = true := by
  cases result with
  | error e => rwa [FileAction.openFile_error h]
  | ok n =>
    rcases FileAction.openFile_ok h with ⟨_, _, -, rfl⟩ | ⟨dir, name, hseek, rfl⟩
    · exact hfile
    · refine isFile_put (by simp) (fun e he => ?_) _ hfile
      cases (entryAt?_of_seek_vacant hseek).symm.trans he

theorem isFile_write {path other : Path} (h : (FileAction.write path bytes).run t = (.ok (), t'))
    (hfile : t.isFile other = true) : t'.isFile other = true := by
  obtain ⟨place, n, number, hne, rfl, hold, -⟩ := FileAction.write_ok h
  exact isFile_put hne hold number hfile

/-- Two names of a directory lead to the same files, where they lead to files. -/
theorem read_of_seek_eq {d d' : Path} {bytes' : List UInt8}
    (hd : t.seek true d = .found P .directory) (hd' : t.seek true d' = .found P .directory)
    (hrel : Path.isAbsolute rel = false) (h : t.read (d.join rel) = .ok bytes)
    (h' : t.read (d'.join rel) = .ok bytes') : bytes' = bytes := by
  have hwalk : ∀ {d bytes}, t.seek true d = .found P .directory → t.read (d.join rel) = .ok bytes →
      ∃ left place n, t.walkLinks true left P rel.segments = .found place (.file n bytes) := by
    intro d bytes hd h
    obtain ⟨place, n, hseek⟩ := read_eq_ok_iff.mp h
    obtain ⟨left, hleads⟩ := exists_leads hd
    rw [hleads.seek hrel (endsInStep_of_seek hrel hseek)] at hseek
    split at hseek
    · cases hseek
    split at hseek
    · cases hseek
    exact ⟨left, place, n, hseek⟩
  obtain ⟨left, place, n, hfound⟩ := hwalk hd h
  obtain ⟨left', place', n', hfound'⟩ := hwalk hd' h'
  have hsame := walkLinks_agree hfound hfound' (by intro h; cases h) (by intro h; cases h)
  cases hsame
  rfl

/-! ## 2. Builds that can be taken over -/

/-- The directory holds a build: its entry point, and a marker that tells of that and of the time. -/
structure HoldsBuild (t : FileTree) (directory rel : Path) (builtAtMs : Nat) : Prop where
  relative : Path.isAbsolute rel = false
  marker : Marker.read? t directory = some ⟨Path.noted directory rel, builtAtMs⟩
  entry : t.isFile (directory.join rel) = true

namespace HoldsBuild

theorem endsInStep (h : t.HoldsBuild directory rel builtAtMs) : Path.EndsInStep rel.segments := by
  obtain ⟨place, n, bytes, hseek⟩ := isFile_iff.mp h.entry
  exact endsInStep_of_seek h.relative hseek

/-- The entry point is found under the name that the marker has for it. -/
theorem isFile_noted (h : t.HoldsBuild directory rel builtAtMs) :
    t.isFile (directory.join (Path.noted directory rel)) = true := by
  obtain ⟨place, n, bytes, hseek⟩ := isFile_iff.mp h.entry
  unfold Path.noted
  split
  · exact h.entry
  · rename_i hdir
    exact isFile_iff.mpr ⟨place, n, bytes, seek_join_tidied hdir h.relative h.endsInStep hseek⟩

/-- The artifact that a directory holds: the same entry point, and the time to the millisecond. -/
theorem restore (h : t.HoldsBuild directory rel builtAtMs) :
    (Marker.read? t directory).bind (·.restore? t directory) =
      some ⟨directory.join (Path.noted directory rel), builtAtMs * Clock.milli, true⟩ := by
  rw [h.marker, Option.bind_some, Marker.restore?]
  exact if_pos h.isFile_noted

/-- A build whose entry point lies in its directory leaves it there with the marker. -/
theorem of_write {artifact : Artifact} {m : Marker} (hrel : Path.isAbsolute rel = false)
    (hartifact : artifact.entryPoint = directory.join rel)
    (hentry : t.isFile artifact.entryPoint = true)
    (hm : Marker.ofArtifact? directory artifact = some m)
    (h : (m.write directory).run t = (.ok (), t')) :
    t'.HoldsBuild directory rel (min (artifact.builtAt / Clock.milli) Json.maxUInt) := by
  rw [hartifact] at hentry
  obtain ⟨place, n, bytes, hseek⟩ := isFile_iff.mp hentry
  have hends := endsInStep_of_seek hrel hseek
  rw [Marker.ofArtifact?, hartifact, Path.below?_noted hrel hends, Option.map_some] at hm
  obtain rfl := Option.some.inj hm
  refine ⟨hrel, ?_, isFile_write h hentry⟩
  refine Marker.read?_eq_some_iff.mpr ⟨_, FileAction.read_of_write h, Marker.parse?_encode ?_⟩
  exact Nat.min_le_right _ _

/-- As long as nobody touches the marker and the entry point, the directory holds the build. -/
theorem of_same (h : t.HoldsBuild directory rel builtAtMs)
    (hmarker : Marker.read? t' directory = Marker.read? t directory)
    (hentry : t'.isFile (directory.join rel) = true) : t'.HoldsBuild directory rel builtAtMs :=
  ⟨h.relative, hmarker.trans h.marker, hentry⟩

theorem openFile {path : Path} {result : Except FileError Nat}
    (h : t.HoldsBuild directory rel builtAtMs)
    (hopen : (FileAction.openFile path).run t = (result, t')) :
    t'.HoldsBuild directory rel builtAtMs :=
  h.of_same (Marker.read?_openFile hopen directory) (isFile_openFile hopen h.entry)

/-- By another name from which the marker and the entry point can be reached, the directory holds the
same build. -/
theorem renamed {directory' : Path} (h : t.HoldsBuild directory rel builtAtMs)
    (hsame : t.look true directory = .ok (P, .directory))
    (hsame' : t.look true directory' = .ok (P, .directory))
    (hmarker : t.isFile (directory'.join Marker.fileName) = true)
    (hentry : t.isFile (directory'.join rel) = true) : t.HoldsBuild directory' rel builtAtMs := by
  rw [look_eq_ok_iff] at hsame hsame'
  have hnoted : Path.noted directory' rel = Path.noted directory rel := by
    have hne : ∀ {d}, t.seek true d = .found P .directory → d ≠ "" := by
      rintro d hd rfl
      cases hd
    rw [Path.noted, Path.noted, if_neg (hne hsame), if_neg (hne hsame')]
  obtain ⟨bytes, hread, hparse⟩ := Marker.read?_eq_some_iff.mp h.marker
  obtain ⟨bytes', hread'⟩ := isFile_iff_read.mp hmarker
  obtain rfl := read_of_seek_eq hsame hsame' rfl hread hread'
  exact ⟨h.relative, Marker.read?_eq_some_iff.mpr ⟨_, hread', hnoted ▸ hparse⟩, hentry⟩

/-- A copy of the directory holds the build. -/
theorem copy (h : t.HoldsBuild source rel builtAtMs) (htidy : t.IsTidy)
    (hfresh : t.IsFresh source target)
    (hcopy : (FileAction.copyOutside omitted source target).run t = (.ok (), t'))
    (hkept : Marker.fileName ≠ omitted) (hup : ".." ∉ rel.segments)
    (homitted : omitted ∉ rel.segments) (hfits : (target.join rel).utf8ByteSize ≤ maxPath) :
    t'.HoldsBuild target rel builtAtMs := by
  have hsource : source ≠ "" := by
    rintro rfl
    obtain ⟨P, T, hlook, -⟩ := hfresh
    cases hlook
  have htarget : target ≠ "" := by
    rintro rfl
    obtain ⟨P, T, -, -, hlook, -⟩ := hfresh
    cases hlook
  have hnoted : Path.noted target rel = Path.noted source rel := by
    rw [Path.noted, Path.noted, if_neg hsource, if_neg htarget]
  have hname : Path.IsName Marker.fileName := ⟨rfl, by decide⟩
  obtain ⟨bytes, hread, hparse⟩ := Marker.read?_eq_some_iff.mp h.marker
  have hread' := read_name_of_copyOutside htidy hfresh hcopy hname hkept hread
  refine ⟨h.relative, Marker.read?_eq_some_iff.mpr ⟨bytes, hread', hnoted ▸ hparse⟩, ?_⟩
  obtain ⟨content, hcontent⟩ := isFile_iff_read.mp h.entry
  exact isFile_iff_read.mpr ⟨content,
    read_of_copyOutside htidy hfresh hcopy h.relative hup homitted hfits hcontent⟩

end HoldsBuild

/-- The directory holds nothing to take over: there is no marker, it cannot be read or is malformed, or
it names no regular file. -/
def LacksBuild (t : FileTree) (directory : Path) : Prop :=
  ∀ m, Marker.read? t directory = some m → t.isFile (directory.join m.entryPoint) = false

theorem lacksBuild_iff : t.LacksBuild directory ↔
    (Marker.read? t directory).bind (·.restore? t directory) = none := by
  rw [LacksBuild, Option.bind_eq_none_iff]
  refine forall_congr' fun m => imp_congr_right fun _ => ?_
  rw [Marker.restore?]
  cases t.isFile (directory.join m.entryPoint) with
  | true => exact iff_of_false (by decide) (by rw [if_pos rfl]; exact Option.some_ne_none _)
  | false => exact iff_of_true rfl rfl

/-- Without a marker that can be read and understood there is nothing to take over. -/
theorem LacksBuild.of_read
    (h : ∀ bytes, t.read (directory.join Marker.fileName) = .ok bytes → Marker.parse? bytes = none) :
    t.LacksBuild directory := by
  intro m hm
  obtain ⟨bytes, hread, hparse⟩ := Marker.read?_eq_some_iff.mp hm
  cases hparse.symm.trans (h bytes hread)

end FileTree

end Playground
