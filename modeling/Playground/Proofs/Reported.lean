import Playground.Service.Compiled
/-!
# What is reported of a compile

Whether a compile has succeeded is read off the diagnostics of the compiler, and what is reported
off the mapped ones.  Mapping drops diagnostics and moves them, but leaves severities and ids alone.
-/

namespace Playground

namespace DiagnosticMap

variable {inlined : Workspace} {regions : List Region} {active : BufferId} {d : RawDiagnostic}
  {shown : Diagnostic}

theorem severity_unfiltered (d : RawDiagnostic) : (unfiltered d).severity = d.severity := by
  unfold unfiltered
  split <;> rfl

theorem id_unfiltered (d : RawDiagnostic) : (unfiltered d).id = d.id := by
  unfold unfiltered
  split <;> rfl

theorem of_intoRegion? {path : String}
    (h : intoRegion? inlined regions active d path = some shown) :
    shown.severity = d.severity ∧ shown.id = d.id := by
  obtain ⟨r, -, h⟩ := Option.bind_eq_some_iff.mp h
  obtain ⟨file, -, h⟩ := Option.bind_eq_some_iff.mp h
  obtain ⟨content, -, h⟩ := Option.bind_eq_some_iff.mp h
  obtain ⟨text, -, h⟩ := Option.bind_eq_some_iff.mp h
  dsimp only at h
  split at h
  · cases h
  · obtain ⟨line, -, h⟩ := Option.bind_eq_some_iff.mp h
    split at h
    · obtain ⟨position, -, h⟩ := Option.bind_eq_some_iff.mp h
      rw [← Option.some.inj h]
      exact ⟨rfl, rfl⟩
    · cases h

/-- What is shown of a diagnostic has its severity and its id. -/
theorem of_forActive? (h : forActive? inlined regions active d = some shown) :
    shown.severity = d.severity ∧ shown.id = d.id := by
  obtain ⟨path, -, h⟩ := Option.bind_eq_some_iff.mp h
  dsimp only at h
  split at h
  · cases h
  · split at h
    · exact of_intoRegion? h
    · rw [← Option.some.inj h]
      exact ⟨rfl, rfl⟩

end DiagnosticMap

open DiagnosticMap

namespace Compiled

variable {c : Compiled}

/-- The mapped diagnostics are those of the compiler. -/
structure Faithful (c : Compiled) : Prop where
  all : c.mapped.all = c.output.diagnostics.map unfiltered
  shown : ∀ d ∈ c.mapped.inActiveBuffer,
    ∃ raw ∈ c.output.diagnostics, d.severity = raw.severity ∧ d.id = raw.id

theorem faithful_of_map {inlined : Workspace} {active : BufferId} {b : Budget} {now : Instant}
    (h : (mapDiagnostics inlined active c.output.diagnostics b now).2 = .ok c.mapped) :
    c.Faithful := by
  unfold mapDiagnostics at h
  split at h
  · cases h
  · cases hregions : regionsOf inlined.files with
    | error e =>
      rw [hregions] at h
      cases h
    | ok regions =>
      rw [hregions] at h
      have hmapped : _ = c.mapped := Except.ok.inj h
      refine ⟨by rw [← hmapped], fun d hd => ?_⟩
      rw [← hmapped] at hd
      obtain ⟨raw, hraw, hshown⟩ := List.mem_filterMap.mp hd
      exact ⟨raw, hraw, of_forActive? hshown⟩

/-- The errors of the compiler. -/
def rawErrors (c : Compiled) : List RawDiagnostic :=
  c.output.diagnostics.filter (·.severity.isError)

/-- There is an assembly for the client exactly if the compile has succeeded. -/
theorem isSome_assembly? (c : Compiled) : c.assembly?.isSome = c.succeeded := by
  unfold assembly?
  cases hsucceeded : c.succeeded with
  | false => rfl
  | true =>
    rw [succeeded, Bool.and_eq_true] at hsucceeded
    exact hsucceeded.1

theorem Faithful.errors_all (hc : c.Faithful) :
    c.mapped.all.filter (·.isError) = c.rawErrors.map unfiltered := by
  rw [hc.all, List.filter_map, rawErrors]
  congr 2
  funext raw
  show (unfiltered raw).severity.isError = _
  rw [severity_unfiltered]

theorem Faithful.succeeded_errors (hc : c.Faithful) (hsucceeded : c.succeeded = true) :
    ∀ d ∈ c.reported, d.isError = false := by
  intro d hd
  rw [reported, errorsElsewhere, hsucceeded, Bool.true_or, if_pos rfl, List.append_nil] at hd
  obtain ⟨raw, hraw, hseverity, -⟩ := hc.shown d hd
  rw [succeeded, Bool.and_eq_true, Bool.not_eq_true', List.any_eq_false] at hsucceeded
  rw [Diagnostic.isError, hseverity]
  exact eq_false_of_ne_true (hsucceeded.2 raw hraw)

/-- A compile that has failed, and of which no error is shown in the active buffer, reports every
error of the compiler once, in order; without any it reports the failure itself. -/
theorem Faithful.errors_reported (hc : c.Faithful) (hfailed : c.succeeded = false)
    (hactive : ∀ d ∈ c.mapped.inActiveBuffer, d.isError = false) :
    c.reported.filter (·.isError) =
      if c.rawErrors = [] then [unexplained] else c.rawErrors.map unfiltered := by
  have hany : c.mapped.inActiveBuffer.any (·.isError) = false := by
    rw [List.any_eq_false]
    exact fun d hd => hactive d hd ▸ Bool.false_ne_true
  have hnone : c.mapped.inActiveBuffer.filter (·.isError) = [] := by
    rw [List.filter_eq_nil_iff]
    exact fun d hd => hactive d hd ▸ Bool.false_ne_true
  have hself : (c.rawErrors.map unfiltered).filter (·.isError) = c.rawErrors.map unfiltered := by
    rw [← hc.errors_all, List.filter_filter]
    simp only [Bool.and_self]
  rw [reported, List.filter_append, hnone, List.nil_append, errorsElsewhere, hfailed, hany,
    Bool.false_or, if_neg Bool.false_ne_true, hc.errors_all]
  by_cases hraw : c.rawErrors = []
  · rw [hraw]
    rfl
  · have hempty : (c.rawErrors.map unfiltered).isEmpty = false := by
      rw [List.isEmpty_eq_false_iff]
      exact fun hmap => hraw (List.map_eq_nil_iff.mp hmap)
    simp only [hempty, if_neg hraw]
    exact hself

/-- A compile has succeeded exactly if no error is reported. -/
theorem Faithful.succeeded_iff (hc : c.Faithful) :
    c.succeeded = true ↔ ∀ d ∈ c.reported, d.isError = false := by
  refine ⟨hc.succeeded_errors, fun hreported => ?_⟩
  refine eq_true_of_ne_false fun hfailed => ?_
  have hactive : ∀ d ∈ c.mapped.inActiveBuffer, d.isError = false :=
    fun d hd => hreported d (List.mem_append_left _ hd)
  -- then at least the failure itself would be reported
  have herrors := hc.errors_reported hfailed hactive
  have hnone : c.reported.filter (·.isError) = [] := by
    rw [List.filter_eq_nil_iff]
    exact fun d hd => hreported d hd ▸ Bool.false_ne_true
  rw [hnone] at herrors
  split at herrors
  · cases herrors
  · rename_i hraw
    exact hraw (List.map_eq_nil_iff.mp herrors.symm)

/-- What is reported has the id of a diagnostic of the compiler, or tells that there is none. -/
theorem Faithful.mem_reported (hc : c.Faithful) {d : Diagnostic} (hd : d ∈ c.reported) :
    d = unexplained ∨ ∃ raw ∈ c.output.diagnostics, d.id = raw.id := by
  rcases List.mem_append.mp hd with hd | hd
  · obtain ⟨raw, hraw, -, hid⟩ := hc.shown d hd
    exact .inr ⟨raw, hraw, hid⟩
  · unfold errorsElsewhere at hd
    split at hd
    · cases hd
    · dsimp only at hd
      split at hd
      · exact .inl (List.mem_singleton.mp hd)
      · rw [hc.errors_all] at hd
        obtain ⟨raw, hraw, rfl⟩ := List.mem_map.mp hd
        exact .inr ⟨raw, (List.mem_filter.mp hraw).1, id_unfiltered raw⟩

end Compiled

end Playground
