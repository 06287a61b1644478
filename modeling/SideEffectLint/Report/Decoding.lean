import SideEffectLint.Json.Decoder
import SideEffectLint.Report.Encoding

/-!
Reading reports back from JSON. Members that mean nothing are skipped.
-/

namespace SideEffectLint

open Json (Decoder RecordField Record Tagged)

def required {α β : Type} (name : String) (d : Decoder β) (set : β → α → α) :
    RecordField α :=
  ⟨name, true, d.map set⟩

def defaulted {α β : Type} (name : String) (d : Decoder β) (set : β → α → α) :
    RecordField α :=
  ⟨name, false, d.map set⟩

namespace FunctionRef

def decoder : Decoder FunctionRef :=
  Record.decoder {
    title := "struct FunctionRef"
    blank := ⟨none, 0⟩
    fields := [
      defaulted "name" (.optional .string) fun name f => { f with name },
      required "line" .word32 fun line f => { f with line }]
    closed := false }

end FunctionRef

namespace Finding

/-- What every finding tells; the subject is a parameter or a method. -/
structure Parts where
  line : Nat
  subject : String
  function : FunctionRef

def partsDecoder (kind subject : String) : Decoder Parts :=
  Record.decoder {
    title := "struct variant Finding::" ++ kind
    blank := ⟨0, "", ⟨none, 0⟩⟩
    fields := [
      required "line" .word32 fun line p => { p with line },
      required subject .string fun subject p => { p with subject },
      required "function" FunctionRef.decoder fun function p => { p with function }]
    closed := false }

def decoder : Decoder Finding :=
  Tagged.decoder {
    title := "internally tagged enum Finding"
    tag := "kind"
    variants := [
      ("ParameterMutation", (partsDecoder "ParameterMutation" "parameter").map fun p =>
        .parameterMutation p.line p.subject p.function),
      ("BlacklistedCall", (partsDecoder "BlacklistedCall" "method").map fun p =>
        .blacklistedCall p.line p.subject p.function)] }

end Finding

namespace SkippedFunction

def decoder : Decoder SkippedFunction :=
  Record.decoder {
    title := "struct SkippedFunction"
    blank := ⟨⟨none, 0⟩, ""⟩
    fields := [
      required "function" FunctionRef.decoder fun function s => { s with function },
      required "reason" .string fun reason s => { s with reason }]
    closed := false }

end SkippedFunction

namespace FileStatus

def decoder : Decoder FileStatus :=
  .choice ([clean, flagged].map fun s => (s.name, s))

end FileStatus

namespace FileReport

def decoder : Decoder FileReport :=
  Record.decoder {
    title := "struct FileReport"
    blank := ⟨"", .clean, [], []⟩
    fields := [
      required "file" .string fun file r => { r with file },
      required "status" FileStatus.decoder fun status r => { r with status },
      defaulted "findings" (.list Finding.decoder) fun findings r => { r with findings },
      defaulted "skipped_functions" (.list SkippedFunction.decoder) fun skipped r =>
        { r with skipped }]
    closed := false }

end FileReport

namespace FileFailure

def decoder : Decoder FileFailure :=
  Record.decoder {
    title := "struct FileFailure"
    blank := ⟨"", ""⟩
    fields := [
      required "file" .string fun file f => { f with file },
      required "reason" .string fun reason f => { f with reason }]
    closed := false }

end FileFailure

namespace ScanReport

def decoder : Decoder ScanReport :=
  Record.decoder {
    title := "struct ScanReport"
    blank := ⟨[], []⟩
    fields := [
      required "files" (.list FileReport.decoder) fun files r => { r with files },
      defaulted "failures" (.list FileFailure.decoder) fun failures r => { r with failures }]
    closed := false }

def ofJson (text : String) : Except Json.TextFault ScanReport :=
  decoder.decode text

end ScanReport

end SideEffectLint
