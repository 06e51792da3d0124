import Playground.Proofs.Wire.Records
import Playground.Proofs.WrittenIds
/-!
# What is sent is read back

Every value of a type that goes over the wire is read back from its text, with each id in it read
from its written form.  Each type is described by its fields in the order in which they are sent,
and by the ids in its values.
-/

namespace Playground

open Wire WireForm

/-! ## 1. Ids, languages and severities -/

namespace BufferId

def form : WireForm BufferId where
  write := toJson
  read? := ofJson?
  ids id := [id]
  mapIds f id := f id
  Sendable _ := True

theorem form_sound : form.Sound where
  plain _ := .str _
  read?_write _ _ := rfl
  mapIds_self _ id h := h id List.mem_cons_self

end BufferId

namespace Language

open Text

/-- Only capital letters are changed. -/
theorem lowerAscii_eq_self_or (c : Char) : lowerAscii c = c ∨ ∃ n < 26, c = Char.ofNat (65 + n) := by
  by_cases h : 'A' ≤ c ∧ c ≤ 'Z'
  · right
    have hfrom : 65 ≤ c.toNat := UInt32.le_iff_toNat_le.mp h.1
    have hto : c.toNat ≤ 90 := UInt32.le_iff_toNat_le.mp h.2
    refine ⟨c.toNat - 65, by omega, ?_⟩
    rw [Nat.add_sub_cancel' hfrom, Char.ofNat_toNat]
  · exact .inl (if_neg h)

theorem isBlank_lowerAscii (c : Char) : isBlank (lowerAscii c) = isBlank c := by
  have hletters : ∀ n < 26,
      isBlank (lowerAscii (Char.ofNat (65 + n))) = isBlank (Char.ofNat (65 + n)) := by decide
  rcases lowerAscii_eq_self_or c with h | ⟨n, hn, rfl⟩
  · rw [h]
  · exact hletters n hn

theorem lowerAscii_lowerAscii (c : Char) : lowerAscii (lowerAscii c) = lowerAscii c := by
  have hletters : ∀ n < 26, lowerAscii (lowerAscii (Char.ofNat (65 + n))) =
      lowerAscii (Char.ofNat (65 + n)) := by decide
  rcases lowerAscii_eq_self_or c with h | ⟨n, hn, rfl⟩
  · rw [h, h]
  · exact hletters n hn

/-- A tag is in the form that tags are brought into. -/
theorem ofTag_tag (tag : String) : ofTag (ofTag tag).tag = ofTag tag := by
  obtain ⟨hhead, hlast⟩ := trim_eq_self.mp (trim_trim tag.toList)
  have htrim : trim ((trim tag.toList).map lowerAscii) = (trim tag.toList).map lowerAscii := by
    refine trim_eq_self.mpr ⟨fun c hc => ?_, fun c hc => ?_⟩
    · rw [List.head?_map] at hc
      obtain ⟨d, hd, rfl⟩ := Option.map_eq_some_iff.mp hc
      rw [isBlank_lowerAscii, hhead d hd]
    · rw [List.getLast?_map] at hc
      obtain ⟨d, hd, rfl⟩ := Option.map_eq_some_iff.mp hc
      rw [isBlank_lowerAscii, hlast d hd]
  have hlower : lowerAscii ∘ lowerAscii = lowerAscii := funext lowerAscii_lowerAscii
  rw [ofTag, ofTag, String.toList_ofList, htrim, List.map_map, hlower]

/-- A language is sent as its tag. -/
def form : WireForm Language where
  write := toJson
  read? := ofJson?
  ids _ := []
  mapIds _ l := l
  Sendable l := ∃ tag, l = ofTag tag

theorem form_sound : form.Sound where
  plain _ := .str _
  read?_write l := by
    rintro ⟨tag, rfl⟩
    exact congrArg some (ofTag_tag tag)
  mapIds_self _ _ _ := rfl

end Language

namespace Severity

def form : WireForm Severity where
  write := toJson
  read? := ofJson?
  ids _ := []
  mapIds _ s := s
  Sendable _ := True

theorem form_sound : form.Sound where
  plain _ := .str _
  read?_write s _ := by cases s <;> rfl
  mapIds_self _ _ _ := rfl

end Severity

/-! ## 2. Sources and requests -/

namespace Span

def fields : List (RecordField Span) :=
  [.always "start" (·.start) number_sound, .always "length" (·.length) number_sound]

theorem toJson_eq (s : Span) : s.toJson = record fields s := rfl

def form : WireForm Span where
  write := toJson
  read? := ofJson?
  ids _ := []
  mapIds _ s := s
  Sendable s := s.start ≤ Json.maxUInt ∧ s.length ≤ Json.maxUInt

theorem form_sound : form.Sound where
  plain s := isPlain_of_eq_record (toJson_eq s)
  read?_write s h :=
    bind_eq_some (slots?_of_eq_record (toJson_eq s) rfl)
      (bind_eq_some (Json.uint?_ofNat h.1) (bind_eq_some (Json.uint?_ofNat h.2) rfl))
  mapIds_self _ _ _ := rfl

end Span

namespace SourceFile

def fields : List (RecordField SourceFile) :=
  [.always "name" (·.name) text_sound, .always "text" (·.text) text_sound]

theorem toJson_eq (f : SourceFile) : f.toJson = record fields f := rfl

def form : WireForm SourceFile where
  write := toJson
  read? := ofJson?
  ids _ := []
  mapIds _ f := f
  Sendable _ := True

theorem form_sound : form.Sound where
  plain f := isPlain_of_eq_record (toJson_eq f)
  read?_write f _ := bind_eq_some (slots?_of_eq_record (toJson_eq f) rfl) rfl
  mapIds_self _ _ _ := rfl

end SourceFile

namespace Buffer

def fields : List (RecordField Buffer) :=
  [.always "id" (·.id) BufferId.form_sound, .always "content" (·.content) text_sound,
    .always "position" (·.position) number_sound]

theorem toJson_eq (b : Buffer) : b.toJson = record fields b := rfl

def form : WireForm Buffer where
  write := toJson
  read? := ofJson?
  ids b := [b.id]
  mapIds f b := { b with id := f b.id }
  Sendable b := b.position ≤ Json.maxUInt

theorem form_sound : form.Sound where
  plain b := isPlain_of_eq_record (toJson_eq b)
  read?_write b h :=
    bind_eq_some (slots?_of_eq_record (toJson_eq b) rfl)
      (bind_eq_some rfl (bind_eq_some rfl (bind_eq_some (Json.uint?_ofNat h) rfl)))
  mapIds_self f b h := by
    show { b with id := f b.id } = b
    rw [h b.id List.mem_cons_self]

end Buffer

namespace Workspace

def fields : List (RecordField Workspace) :=
  [.always "files" (·.files) SourceFile.form_sound.list,
    .always "buffers" (·.buffers) Buffer.form_sound.list,
    .always "usings" (·.usings) text_sound.list,
    .always "workspaceType" (·.workspaceType) text_sound,
    .always "language" (·.language) Language.form_sound,
    .always "includeInstrumentation" (·.includeInstrumentation) truth_sound]

theorem toJson_eq (w : Workspace) : w.toJson = record fields w := rfl

def form : WireForm Workspace where
  write := toJson
  read? := ofJson?
  ids w := Buffer.form.list.ids w.buffers
  mapIds f w := { w with buffers := Buffer.form.list.mapIds f w.buffers }
  Sendable w := Buffer.form.list.Sendable w.buffers ∧ Language.form.Sendable w.language

theorem form_sound : form.Sound where
  plain w := isPlain_of_eq_record (toJson_eq w)
  read?_write w h := by
    have hfiles := SourceFile.form_sound.list_self (fun _ => rfl) w.files fun _ _ => trivial
    have husings := text_sound.list_self (fun _ => rfl) w.usings fun _ _ => trivial
    have hbuffers := Buffer.form_sound.list.read?_write w.buffers h.1
    have hlanguage := Language.form_sound.read?_write w.language h.2
    exact bind_eq_some (slots?_of_eq_record (toJson_eq w) rfl) (bind_eq_some hfiles
      (bind_eq_some hbuffers (bind_eq_some husings
        (bind_eq_some rfl (bind_eq_some hlanguage rfl)))))
  mapIds_self f w h := by
    show { w with buffers := Buffer.form.list.mapIds f w.buffers } = w
    rw [Buffer.form_sound.list.mapIds_self f w.buffers h]

end Workspace

namespace Request

def fields : List (RecordField Request) :=
  [.always "workspace" (·.workspace) Workspace.form_sound,
    .always "activeBufferId" (·.activeBufferId) BufferId.form_sound,
    .always "requestId" (·.requestId) text_sound, .present "runArgs" (·.runArgs) text_sound]

theorem toJson_eq (r : Request) : r.toJson = record fields r := by
  obtain ⟨workspace, active, requestId, runArgs⟩ := r
  cases runArgs <;> rfl

def form : WireForm Request where
  write := toJson
  read? := ofJson?
  ids r := r.activeBufferId :: Workspace.form.ids r.workspace
  mapIds f r := { r with
    workspace := Workspace.form.mapIds f r.workspace
    activeBufferId := f r.activeBufferId }
  Sendable r := Workspace.form.Sendable r.workspace

theorem form_sound : form.Sound where
  plain r := isPlain_of_eq_record (toJson_eq r)
  read?_write r h := by
    have hworkspace := Workspace.form_sound.read?_write r.workspace h
    exact bind_eq_some (slots?_of_eq_record (toJson_eq r) rfl) (bind_eq_some hworkspace
      (bind_eq_some rfl (bind_eq_some rfl (bind_eq_some (optional_text r.runArgs) rfl))))
  mapIds_self f r h := by
    obtain ⟨hactive, hworkspace⟩ := List.forall_mem_cons.mp h
    show { r with
      workspace := Workspace.form.mapIds f r.workspace
      activeBufferId := f r.activeBufferId } = r
    rw [Workspace.form_sound.mapIds_self f r.workspace hworkspace, hactive]

end Request

namespace Region

def fields : List (RecordField Region) :=
  [.always "bufferId" (·.bufferId) BufferId.form_sound, .always "region" (·.span) Span.form_sound,
    .always "destination" (·.destination) text_sound]

theorem toJson_eq (r : Region) : r.toJson = record fields r := rfl

def form : WireForm Region where
  write := toJson
  read? := ofJson?
  ids r := [r.bufferId]
  mapIds f r := { r with bufferId := f r.bufferId }
  Sendable r := Span.form.Sendable r.span

theorem form_sound : form.Sound where
  plain r := isPlain_of_eq_record (toJson_eq r)
  read?_write r h := by
    have hspan := Span.form_sound.read?_write r.span h
    exact bind_eq_some (slots?_of_eq_record (toJson_eq r) rfl)
      (bind_eq_some rfl (bind_eq_some hspan rfl))
  mapIds_self f r h := by
    show { r with bufferId := f r.bufferId } = r
    rw [h r.bufferId List.mem_cons_self]

end Region

/-! ## 3. Diagnostics -/

namespace RawDiagnostic

/-- The path is sent as `null` when there is none. -/
def fields : List (RecordField RawDiagnostic) :=
  [{ name := "filePath"
     value := fun d => some (d.filePath.elim .null .str)
     plain := fun d item hitem => by
       obtain rfl := Option.some.inj hitem
       cases d.filePath with
       | none => exact .null
       | some path => exact .str path },
    .always "start" (·.start) number_sound, .always "end" (·.stop) number_sound,
    .always "severity" (·.severity) Severity.form_sound, .always "id" (·.id) text_sound,
    .always "message" (·.message) text_sound]

theorem toJson_eq (d : RawDiagnostic) : d.toJson = record fields d := rfl

def form : WireForm RawDiagnostic where
  write := toJson
  read? := ofJson?
  ids _ := []
  mapIds _ d := d
  Sendable d := d.start ≤ Json.maxUInt ∧ d.stop ≤ Json.maxUInt

theorem form_sound : form.Sound where
  plain d := isPlain_of_eq_record (toJson_eq d)
  read?_write d h := by
    have hpath : optional Json.str? (some (d.filePath.elim .null .str)) = some d.filePath := by
      cases d.filePath <;> rfl
    have hseverity := Severity.form_sound.read?_write d.severity trivial
    exact bind_eq_some (slots?_of_eq_record (toJson_eq d) rfl) (bind_eq_some hpath
      (bind_eq_some (Json.uint?_ofNat h.1) (bind_eq_some (Json.uint?_ofNat h.2)
        (bind_eq_some hseverity rfl))))
  mapIds_self _ _ _ := rfl

end RawDiagnostic

namespace Diagnostic

def fields : List (RecordField Diagnostic) :=
  [.always "start" (·.start) number_sound, .always "end" (·.stop) number_sound,
    .always "message" (·.message) text_sound, .always "severity" (·.severity) Severity.form_sound,
    .always "id" (·.id) text_sound, .present "bufferId" (·.bufferId) BufferId.form_sound]

theorem toJson_eq (d : Diagnostic) : d.toJson = record fields d := by
  obtain ⟨start, stop, message, severity, id, bufferId⟩ := d
  cases bufferId <;> rfl

def form : WireForm Diagnostic where
  write := toJson
  read? := ofJson?
  ids d := d.bufferId.toList
  mapIds f d := { d with bufferId := d.bufferId.map f }
  Sendable d := d.start ≤ Json.maxUInt ∧ d.stop ≤ Json.maxUInt

theorem form_sound : form.Sound where
  plain d := isPlain_of_eq_record (toJson_eq d)
  read?_write d h := by
    have hseverity := Severity.form_sound.read?_write d.severity trivial
    have hid := BufferId.form_sound.optional (o := d.bufferId) (fun _ _ => trivial) nofun
    exact bind_eq_some (slots?_of_eq_record (toJson_eq d) rfl)
      (bind_eq_some (Json.uint?_ofNat h.1) (bind_eq_some (Json.uint?_ofNat h.2) (bind_eq_some rfl
        (bind_eq_some hseverity (bind_eq_some rfl (bind_eq_some hid rfl))))))
  mapIds_self f d h := by
    have hid : d.bufferId.map f = d.bufferId :=
      (Option.map_congr fun id hid => h id (Option.mem_toList.mpr hid)).trans
        (congrFun Option.map_id _)
    show { d with bufferId := d.bufferId.map f } = d
    rw [hid]

end Diagnostic

/-! ## 4. Results -/

namespace CompileResult

def fields : List (RecordField CompileResult) :=
  [.always "succeeded" (·.succeeded) truth_sound,
    .always "diagnostics" (·.diagnostics) Diagnostic.form_sound.list,
    .present "assemblyBase64" (·.assemblyBase64) text_sound,
    .always "requestId" (·.requestId) text_sound]

theorem toJson_eq (r : CompileResult) : r.toJson = record fields r := by
  obtain ⟨succeeded, diagnostics, assemblyBase64, requestId⟩ := r
  cases assemblyBase64 <;> rfl

def form : WireForm CompileResult where
  write := toJson
  read? := ofJson?
  ids r := Diagnostic.form.list.ids r.diagnostics
  mapIds f r := { r with diagnostics := Diagnostic.form.list.mapIds f r.diagnostics }
  Sendable r := Diagnostic.form.list.Sendable r.diagnostics

theorem form_sound : form.Sound where
  plain r := isPlain_of_eq_record (toJson_eq r)
  read?_write r h := by
    have hdiagnostics := Diagnostic.form_sound.list.read?_write r.diagnostics h
    exact bind_eq_some (slots?_of_eq_record (toJson_eq r) rfl) (bind_eq_some rfl
      (bind_eq_some hdiagnostics (bind_eq_some (optional_text r.assemblyBase64) rfl)))
  mapIds_self f r h := by
    show { r with diagnostics := Diagnostic.form.list.mapIds f r.diagnostics } = r
    rw [Diagnostic.form_sound.list.mapIds_self f r.diagnostics h]

end CompileResult

namespace RunResult

def fields : List (RecordField RunResult) :=
  [.always "succeeded" (·.succeeded) truth_sound, .always "output" (·.output) text_sound.list,
    .present "exception" (·.exception) text_sound,
    .always "diagnostics" (·.diagnostics) Diagnostic.form_sound.list,
    .always "requestId" (·.requestId) text_sound]

theorem toJson_eq (r : RunResult) : r.toJson = record fields r := by
  obtain ⟨succeeded, output, exception, diagnostics, requestId⟩ := r
  cases exception <;> rfl

def form : WireForm RunResult where
  write := toJson
  read? := ofJson?
  ids r := Diagnostic.form.list.ids r.diagnostics
  mapIds f r := { r with diagnostics := Diagnostic.form.list.mapIds f r.diagnostics }
  Sendable r := Diagnostic.form.list.Sendable r.diagnostics

theorem form_sound : form.Sound where
  plain r := isPlain_of_eq_record (toJson_eq r)
  read?_write r h := by
    have houtput := text_sound.list_self (fun _ => rfl) r.output fun _ _ => trivial
    have hdiagnostics := Diagnostic.form_sound.list.read?_write r.diagnostics h
    exact bind_eq_some (slots?_of_eq_record (toJson_eq r) rfl) (bind_eq_some rfl
      (bind_eq_some houtput (bind_eq_some (optional_text r.exception)
        (bind_eq_some hdiagnostics rfl))))
  mapIds_self f r h := by
    show { r with diagnostics := Diagnostic.form.list.mapIds f r.diagnostics } = r
    rw [Diagnostic.form_sound.list.mapIds_self f r.diagnostics h]

end RunResult

namespace DiagnosticResult

def fields : List (RecordField DiagnosticResult) :=
  [.always "diagnostics" (·.diagnostics) Diagnostic.form_sound.list,
    .always "requestId" (·.requestId) text_sound]

theorem toJson_eq (r : DiagnosticResult) : r.toJson = record fields r := rfl

def form : WireForm DiagnosticResult where
  write := toJson
  read? := ofJson?
  ids r := Diagnostic.form.list.ids r.diagnostics
  mapIds f r := { r with diagnostics := Diagnostic.form.list.mapIds f r.diagnostics }
  Sendable r := Diagnostic.form.list.Sendable r.diagnostics

theorem form_sound : form.Sound where
  plain r := isPlain_of_eq_record (toJson_eq r)
  read?_write r h := by
    have hdiagnostics := Diagnostic.form_sound.list.read?_write r.diagnostics h
    exact bind_eq_some (slots?_of_eq_record (toJson_eq r) rfl) (bind_eq_some hdiagnostics rfl)
  mapIds_self f r h := by
    show { r with diagnostics := Diagnostic.form.list.mapIds f r.diagnostics } = r
    rw [Diagnostic.form_sound.list.mapIds_self f r.diagnostics h]

end DiagnosticResult

namespace CompletionItem

def fields : List (RecordField CompletionItem) :=
  [.always "displayText" (·.displayText) text_sound, .always "kind" (·.kind) text_sound,
    .present "insertText" (·.insertText) text_sound,
    .present "documentation" (·.documentation) text_sound]

theorem toJson_eq (c : CompletionItem) : c.toJson = record fields c := by
  obtain ⟨displayText, kind, insertText, documentation⟩ := c
  cases insertText <;> cases documentation <;> rfl

def form : WireForm CompletionItem where
  write := toJson
  read? := ofJson?
  ids _ := []
  mapIds _ c := c
  Sendable _ := True

theorem form_sound : form.Sound where
  plain c := isPlain_of_eq_record (toJson_eq c)
  read?_write c _ :=
    bind_eq_some (slots?_of_eq_record (toJson_eq c) rfl) (bind_eq_some rfl (bind_eq_some rfl
      (bind_eq_some (optional_text c.insertText) (bind_eq_some (optional_text c.documentation) rfl))))
  mapIds_self _ _ _ := rfl

end CompletionItem

namespace CompletionResult

def fields : List (RecordField CompletionResult) :=
  [.always "items" (·.items) CompletionItem.form_sound.list,
    .always "diagnostics" (·.diagnostics) Diagnostic.form_sound.list,
    .always "requestId" (·.requestId) text_sound]

theorem toJson_eq (r : CompletionResult) : r.toJson = record fields r := rfl

def form : WireForm CompletionResult where
  write := toJson
  read? := ofJson?
  ids r := Diagnostic.form.list.ids r.diagnostics
  mapIds f r := { r with diagnostics := Diagnostic.form.list.mapIds f r.diagnostics }
  Sendable r := Diagnostic.form.list.Sendable r.diagnostics

theorem form_sound : form.Sound where
  plain r := isPlain_of_eq_record (toJson_eq r)
  read?_write r h := by
    have hitems := CompletionItem.form_sound.list_self (fun _ => rfl) r.items fun _ _ => trivial
    have hdiagnostics := Diagnostic.form_sound.list.read?_write r.diagnostics h
    exact bind_eq_some (slots?_of_eq_record (toJson_eq r) rfl) (bind_eq_some hitems
      (bind_eq_some hdiagnostics rfl))
  mapIds_self f r h := by
    show { r with diagnostics := Diagnostic.form.list.mapIds f r.diagnostics } = r
    rw [Diagnostic.form_sound.list.mapIds_self f r.diagnostics h]

end CompletionResult

namespace Parameter

def fields : List (RecordField Parameter) :=
  [.always "label" (·.label) text_sound, .present "documentation" (·.documentation) text_sound]

theorem toJson_eq (p : Parameter) : p.toJson = record fields p := by
  obtain ⟨label, documentation⟩ := p
  cases documentation <;> rfl

def form : WireForm Parameter where
  write := toJson
  read? := ofJson?
  ids _ := []
  mapIds _ p := p
  Sendable _ := True

theorem form_sound : form.Sound where
  plain p := isPlain_of_eq_record (toJson_eq p)
  read?_write p _ :=
    bind_eq_some (slots?_of_eq_record (toJson_eq p) rfl)
      (bind_eq_some rfl (bind_eq_some (optional_text p.documentation) rfl))
  mapIds_self _ _ _ := rfl

end Parameter

namespace Signature

def fields : List (RecordField Signature) :=
  [.always "label" (·.label) text_sound, .present "documentation" (·.documentation) text_sound,
    .always "parameters" (·.parameters) Parameter.form_sound.list]

theorem toJson_eq (s : Signature) : s.toJson = record fields s := by
  obtain ⟨label, documentation, parameters⟩ := s
  cases documentation <;> rfl

def form : WireForm Signature where
  write := toJson
  read? := ofJson?
  ids _ := []
  mapIds _ s := s
  Sendable _ := True

theorem form_sound : form.Sound where
  plain s := isPlain_of_eq_record (toJson_eq s)
  read?_write s _ := by
    have hparameters := Parameter.form_sound.list_self (fun _ => rfl) s.parameters fun _ _ => trivial
    exact bind_eq_some (slots?_of_eq_record (toJson_eq s) rfl) (bind_eq_some rfl
      (bind_eq_some (optional_text s.documentation) (bind_eq_some hparameters rfl)))
  mapIds_self _ _ _ := rfl

end Signature

namespace SignatureResult

def fields : List (RecordField SignatureResult) :=
  [.always "signatures" (·.signatures) Signature.form_sound.list,
    .always "activeSignature" (·.activeSignature) number_sound,
    .always "activeParameter" (·.activeParameter) number_sound,
    .always "diagnostics" (·.diagnostics) Diagnostic.form_sound.list,
    .always "requestId" (·.requestId) text_sound]

theorem toJson_eq (r : SignatureResult) : r.toJson = record fields r := rfl

def form : WireForm SignatureResult where
  write := toJson
  read? := ofJson?
  ids r := Diagnostic.form.list.ids r.diagnostics
  mapIds f r := { r with diagnostics := Diagnostic.form.list.mapIds f r.diagnostics }
  Sendable r := r.activeSignature ≤ Json.maxUInt ∧ r.activeParameter ≤ Json.maxUInt ∧
    Diagnostic.form.list.Sendable r.diagnostics

theorem form_sound : form.Sound where
  plain r := isPlain_of_eq_record (toJson_eq r)
  read?_write r h := by
    have hsignatures := Signature.form_sound.list_self (fun _ => rfl) r.signatures fun _ _ => trivial
    have hdiagnostics := Diagnostic.form_sound.list.read?_write r.diagnostics h.2.2
    exact bind_eq_some (slots?_of_eq_record (toJson_eq r) rfl) (bind_eq_some hsignatures
      (bind_eq_some (Json.uint?_ofNat h.1) (bind_eq_some (Json.uint?_ofNat h.2.1)
        (bind_eq_some hdiagnostics rfl))))
  mapIds_self f r h := by
    show { r with diagnostics := Diagnostic.form.list.mapIds f r.diagnostics } = r
    rw [Diagnostic.form_sound.list.mapIds_self f r.diagnostics h]

end SignatureResult

/-! ## 5. All types on the wire -/

/-- The types whose values go over the wire. -/
inductive WireType where
  | span
  | bufferId
  | language
  | file
  | buffer
  | workspace
  | request
  | region
  | severity
  | rawDiagnostic
  | diagnostic
  | compileResult
  | runResult
  | diagnosticResult
  | completionItem
  | completionResult
  | parameter
  | signature
  | signatureResult
deriving DecidableEq, Repr

namespace WireType

/-- The values of a type. -/
def Value : WireType → Type
  | span => Span
  | bufferId => BufferId
  | language => Language
  | file => SourceFile
  | buffer => Buffer
  | workspace => Workspace
  | request => Request
  | region => Region
  | severity => Severity
  | rawDiagnostic => RawDiagnostic
  | diagnostic => Diagnostic
  | compileResult => CompileResult
  | runResult => RunResult
  | diagnosticResult => DiagnosticResult
  | completionItem => CompletionItem
  | completionResult => CompletionResult
  | parameter => Parameter
  | signature => Signature
  | signatureResult => SignatureResult

/-- How the values of a type are sent. -/
def form : (t : WireType) → WireForm t.Value
  | span => Span.form
  | bufferId => BufferId.form
  | language => Language.form
  | file => SourceFile.form
  | buffer => Buffer.form
  | workspace => Workspace.form
  | request => Request.form
  | region => Region.form
  | severity => Severity.form
  | rawDiagnostic => RawDiagnostic.form
  | diagnostic => Diagnostic.form
  | compileResult => CompileResult.form
  | runResult => RunResult.form
  | diagnosticResult => DiagnosticResult.form
  | completionItem => CompletionItem.form
  | completionResult => CompletionResult.form
  | parameter => Parameter.form
  | signature => Signature.form
  | signatureResult => SignatureResult.form

theorem form_sound (t : WireType) : t.form.Sound := by
  cases t with
  | span => exact Span.form_sound
  | bufferId => exact BufferId.form_sound
  | language => exact Language.form_sound
  | file => exact SourceFile.form_sound
  | buffer => exact Buffer.form_sound
  | workspace => exact Workspace.form_sound
  | request => exact Request.form_sound
  | region => exact Region.form_sound
  | severity => exact Severity.form_sound
  | rawDiagnostic => exact RawDiagnostic.form_sound
  | diagnostic => exact Diagnostic.form_sound
  | compileResult => exact CompileResult.form_sound
  | runResult => exact RunResult.form_sound
  | diagnosticResult => exact DiagnosticResult.form_sound
  | completionItem => exact CompletionItem.form_sound
  | completionResult => exact CompletionResult.form_sound
  | parameter => exact Parameter.form_sound
  | signature => exact Signature.form_sound
  | signatureResult => exact SignatureResult.form_sound

/-- A request with a buffer for a region, a cursor at the largest number, and arguments. -/
def editing : Request where
  workspace :=
    { files := [⟨"a.cs", "#region r\nx\n#endregion\n"⟩]
      buffers := [⟨⟨"a.cs", some "r"⟩, "\"y\"\t", Json.maxUInt⟩]
      usings := ["System"]
      workspaceType := "console"
      language := .ofTag " CSharp "
      includeInstrumentation := true }
  activeBufferId := ⟨"a.cs", some "r"⟩
  requestId := "1"
  runArgs := some ""

end WireType

end Playground
