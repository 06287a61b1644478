import SideEffectLint.Proofs.Json.Decoder
import SideEffectLint.Report.Decoding

/-! A report is read back from its JSON text as it was, whatever its texts, numbers and lists are and
whether or not the status of a file goes with its findings. -/

namespace SideEffectLint

open Json (Decoder Member Mismatch Record Tagged Value)

namespace Json

namespace Record

open Reader

variable {α β : Type} {depth : Nat} {r : Record α} {d : Draft α} {key : String} {isRequired : Bool}

/-- A list that is left out when it is empty sets a field that is empty without it. -/
theorem leads_listMember {decoder : Decoder β} {toValue : β → Value} {set : List β → α → α}
    {xs : List β}
    (hf : r.fields.find? (·.name = key) = some ⟨key, isRequired, decoder.list.map set⟩)
    (hs : d.seen.contains key = false) (h : ∀ x ∈ xs, decoder.Decodes depth (toValue x) x)
    (hn : set [] d.value = d.value) :
    Leads (r.Sets (depth + 1)) d (listMember key toValue xs)
      ⟨set xs d.value, if xs.isEmpty then d.seen else key :: d.seen⟩ := by
  unfold listMember
  split
  · rename_i hx
    rw [List.isEmpty_iff.mp hx, hn]
    exact .nil d
  · have hxs : List.Forall₂ (decoder.Decodes depth) (xs.map toValue) xs := by
      rw [List.forall₂_map_left_iff, List.forall₂_same]
      exact h
    exact .cons (sets_field hf hs (Decoder.decodes_list hxs)) (.nil _)

end Record

end Json

open Json.Reader (Leads)

variable {depth : Nat}

namespace FunctionRef

theorem agrees : decoder.Agrees :=
  Record.agrees (List.forall_mem_cons.mpr ⟨Decoder.agrees_string.optional.map _,
    List.forall_mem_singleton.mpr (Decoder.agrees_word32.map _)⟩)

theorem decodes {f : FunctionRef} (h : f.line < UInt32.size) :
    decoder.Decodes (depth + 1) f.toValue f := by
  obtain ⟨name, line⟩ := f
  have hline : Decoder.word32.Decodes depth (.natural line) line := Decoder.decodes_word32 h
  cases name with
  | none => exact Record.decodes (.cons (Record.sets_field rfl rfl hline) (.nil _)) rfl
  | some name =>
    have hname : Decoder.string.optional.Decodes depth (.string name) (some name) :=
      (Decoder.decodes_string name).optional nofun
    exact Record.decodes (.cons (Record.sets_field rfl rfl hname)
      (.cons (Record.sets_field rfl rfl hline) (.nil _))) rfl

end FunctionRef

namespace Finding

def HasWordLines (f : Finding) : Prop :=
  f.line < UInt32.size ∧ f.function.line < UInt32.size

private theorem decodes_parts {kind subject : String} {line : Nat} {text : String} {f : FunctionRef}
    (hk : subject = "parameter" ∨ subject = "method") (hl : line < UInt32.size)
    (hf : f.line < UInt32.size) :
    (partsDecoder kind subject).Decodes (depth + 2)
      (.object [.mk "line" (.natural line), .mk subject (.string text), .mk "function" f.toValue])
      ⟨line, text, f⟩ := by
  have hline : Decoder.word32.Decodes (depth + 1) (.natural line) line := Decoder.decodes_word32 hl
  have htext : Decoder.string.Decodes (depth + 1) (.string text) text := Decoder.decodes_string text
  have hfunction : FunctionRef.decoder.Decodes (depth + 1) f.toValue f := FunctionRef.decodes hf
  rcases hk with rfl | rfl
  all_goals exact Record.decodes (.cons (Record.sets_field rfl rfl hline)
      (.cons (Record.sets_field rfl rfl htext)
        (.cons (Record.sets_field rfl rfl hfunction) (.nil _)))) rfl

theorem decodes {f : Finding} (h : f.HasWordLines) : decoder.Decodes (depth + 2) f.toValue f := by
  cases f with
  | parameterMutation line parameter function =>
    exact Json.Tagged.decodes rfl (by simp [Member.key]) ((decodes_parts (.inl rfl) h.1 h.2).map _)
  | blacklistedCall line method function =>
    exact Json.Tagged.decodes rfl (by simp [Member.key]) ((decodes_parts (.inr rfl) h.1 h.2).map _)

end Finding

namespace SkippedFunction

theorem agrees : decoder.Agrees :=
  Record.agrees (List.forall_mem_cons.mpr ⟨FunctionRef.agrees.map _,
    List.forall_mem_singleton.mpr (Decoder.agrees_string.map _)⟩)

theorem decodes {s : SkippedFunction} (h : s.function.line < UInt32.size) :
    decoder.Decodes (depth + 2) s.toValue s :=
  Record.decodes (.cons (Record.sets_field rfl rfl (FunctionRef.decodes h))
    (.cons (Record.sets_field rfl rfl (Decoder.decodes_string s.reason)) (.nil _))) rfl

end SkippedFunction

namespace FileStatus

theorem decodes (s : FileStatus) : decoder.Decodes depth (.string s.name) s := by
  cases s <;> exact Decoder.decodes_choice rfl

end FileStatus

namespace FileFailure

theorem agrees : decoder.Agrees :=
  Record.agrees (List.forall_mem_cons.mpr ⟨Decoder.agrees_string.map _,
    List.forall_mem_singleton.mpr (Decoder.agrees_string.map _)⟩)

theorem decodes (f : FileFailure) : decoder.Decodes (depth + 1) f.toValue f :=
  Record.decodes (.cons (Record.sets_field rfl rfl (Decoder.decodes_string f.file))
    (.cons (Record.sets_field rfl rfl (Decoder.decodes_string f.reason)) (.nil _))) rfl

end FileFailure

namespace FileReport

/-- All lines are numbers of 32 bits. -/
def HasWordLines (r : FileReport) : Prop :=
  (∀ f ∈ r.findings, f.HasWordLines) ∧ ∀ s ∈ r.skipped, s.function.line < UInt32.size

theorem agrees : decoder.Agrees := by
  refine Record.agrees ?_
  simp only [List.forall_mem_cons, List.not_mem_nil, IsEmpty.forall_iff, implies_true, and_true]
  exact ⟨Decoder.agrees_string.map _, (Decoder.agrees_choice _).map _, (Tagged.agrees _).list.map _,
    SkippedFunction.agrees.list.map _⟩

theorem decodes {r : FileReport} (h : r.HasWordLines) :
    decoder.Decodes (depth + 4) r.toValue r := by
  obtain ⟨file, status, findings, skipped⟩ := r
  have hfindings f (hf : f ∈ findings) : Finding.decoder.Decodes (depth + 2) f.toValue f :=
    Finding.decodes (h.1 f hf)
  have hskipped s (hs : s ∈ skipped) : SkippedFunction.decoder.Decodes (depth + 2) s.toValue s :=
    SkippedFunction.decodes (h.2 s hs)
  refine Record.decodes (Leads.append (.cons (Record.sets_field rfl rfl (Decoder.decodes_string file))
    (.cons (Record.sets_field rfl rfl status.decodes)
      (Record.leads_listMember rfl rfl hfindings rfl)))
    (Record.leads_listMember rfl ?_ hskipped rfl)) ?_
  · cases findings <;> rfl
  · cases findings <;> cases skipped <;> rfl

end FileReport

namespace ScanReport

/-- All lines are numbers of 32 bits. -/
def HasWordLines (r : ScanReport) : Prop :=
  ∀ f ∈ r.files, f.HasWordLines

theorem agrees : decoder.Agrees :=
  Record.agrees (List.forall_mem_cons.mpr ⟨FileReport.agrees.list.map _,
    List.forall_mem_singleton.mpr (FileFailure.agrees.list.map _)⟩)

theorem decodes {r : ScanReport} (h : r.HasWordLines) :
    decoder.Decodes (depth + 6) r.toValue r := by
  obtain ⟨files, failures⟩ := r
  have hfiles : List.Forall₂ (FileReport.decoder.Decodes (depth + 4))
      (files.map FileReport.toValue) files := by
    rw [List.forall₂_map_left_iff, List.forall₂_same]
    exact fun f hf => FileReport.decodes (h f hf)
  have hfailures f (_ : f ∈ failures) : FileFailure.decoder.Decodes (depth + 4) f.toValue f :=
    f.decodes
  refine Record.decodes (.cons (Record.sets_field rfl rfl (Decoder.decodes_list hfiles))
    (Record.leads_listMember rfl rfl hfailures rfl)) ?_
  cases failures <;> rfl

private theorem toJson_ne_emptyObject (r : ScanReport) : r.toJson ≠ "\x7b\x7d" := by
  intro h
  have hchars := congrArg String.toList h
  rw [toJson, Value.render, String.toList_ofList, toValue, Value.chars, Value.newLine] at hchars
  simp at hchars

/-- The JSON text of a report parses to the value that was printed, which stands for that report. So
two reports have two texts, and no report has the text of the empty object. -/
theorem ofJson_toJson {r : ScanReport} (h : r.HasWordLines) :
    Decoder.anything.decode r.toJson = .ok r.toValue ∧ decoder.ofValue r.toValue = .ok r ∧
      ofJson r.toJson = .ok r ∧ r.toJson ≠ "\x7b\x7d" ∧
      ∀ r' : ScanReport, r'.HasWordLines → r'.toJson = r.toJson → r' = r := by
  have hdecodes {r : ScanReport} (h : r.HasWordLines) :
      decoder.Decodes Decoder.maxDepth r.toValue r := decodes h
  have hread {r : ScanReport} (h : r.HasWordLines) : ofJson r.toJson = .ok r :=
    (hdecodes h).decode_render agrees
  have hr := hdecodes h
  refine ⟨Decoder.decode_anything_render hr.fits, hr.ofValue, hread h,
    toJson_ne_emptyObject r, fun r' h' he => ?_⟩
  have hr' := hread h'
  rw [he, hread h] at hr'
  exact (Except.ok.inj hr').symm

/-- A file with an odd name that is called clean though there are findings in it, one of them in a
function `name`, and a file that is called flagged without any. -/
private def unusual (name : Option String) : ScanReport :=
  ⟨[⟨"a\"\\ \n\x00é.ts", .clean,
      [.parameterMutation 4294967295 "" ⟨name, 0⟩, .blacklistedCall 0 "push" ⟨none, 7⟩],
      [⟨⟨some "f", 1⟩, "\t"⟩]⟩,
    ⟨"", .flagged, [], []⟩], [⟨"b", "c"⟩]⟩

private theorem hasWordLines_unusual (name : Option String) : (unusual name).HasWordLines := by
  simp [HasWordLines, unusual, FileReport.HasWordLines, Finding.HasWordLines, Finding.line,
    Finding.function, UInt32.size]

theorem ofJson_toJson_unusual :
    let r := unusual (some "")
    let r' := unusual none
    r.HasWordLines ∧ r'.HasWordLines ∧ ofJson r.toJson = .ok r ∧ r'.toJson ≠ r.toJson := by
  intro r r'
  have h : r.HasWordLines := hasWordLines_unusual (some "")
  have h' : r'.HasWordLines := hasWordLines_unusual none
  obtain ⟨-, -, hread, -, hinj⟩ := ofJson_toJson h
  refine ⟨h, h', hread, fun he => ?_⟩
  exact absurd (hinj r' h' he) (by decide)

end ScanReport

end SideEffectLint
