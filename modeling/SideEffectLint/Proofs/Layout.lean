import Mathlib.Data.List.Forall2
import SideEffectLint.Proofs.Relabeling

/-! Where the nodes of a module stand decides the lines and offsets of its report and nothing else:
neither what is found nor in which order, nor which functions are skipped and for what. -/

namespace SideEffectLint

namespace Relabeling

/-- Every node stands at the same place. -/
def erased : Relabeling := ofPlaces fun _ => default

/-- Every node keeps nothing of its place but the line it starts on. -/
def startLines (lines : LineMap) : Relabeling := ofPlaces fun span => ⟨lines.line span.start, 0⟩

end Relabeling

/-- The kind of a finding with the names in it. -/
def Finding.unplaced : Finding → Finding
  | parameterMutation _ parameter f => parameterMutation 0 parameter ⟨f.name, 0⟩
  | blacklistedCall _ method f => blacklistedCall 0 method ⟨f.name, 0⟩

/-- Functions of one name that are skipped for the same kind of reason. -/
def SkippedFunction.Alike (s s' : SkippedFunction) : Prop :=
  s.function.name = s'.function.name ∧
    ((∃ o o', s.reason = (FunctionFault.unsupportedParameter o).message ∧
        s'.reason = (FunctionFault.unsupportedParameter o').message) ∨
      ∃ o o', s.reason = (FunctionFault.invalidExpression o).message ∧
        s'.reason = (FunctionFault.invalidExpression o').message)

/-- The finding that a sighting becomes when its place tells a line. -/
def Sighting.lined (function : FunctionRef) : Sighting → Finding
  | mutation span parameter => .parameterMutation span.start parameter function
  | call span method => .blacklistedCall span.start method function

namespace FoundFunction

/-- The findings of a function whose places tell lines. -/
def linedFindings (f : FoundFunction) (blacklist : Blacklist) : List Finding :=
  match f.fault? with
  | none => (f.sightings blacklist).map (Sighting.lined ⟨f.name, f.span.start⟩)
  | some _ => []

variable (f : FoundFunction) (blacklist : Blacklist)

private theorem fault?_relabel_eq_none_iff (r : Relabeling) :
    (f.relabel r).fault? = none ↔ f.fault? = none := by
  rw [← Option.map_eq_none_iff (f := FunctionFault.unplaced), fault?_relabel,
    Option.map_eq_none_iff]

private theorem linedFindings_relabel (place : Span → Span) :
    (f.relabel (.ofPlaces place)).linedFindings blacklist =
      match f.fault? with
      | none => (f.sightings blacklist).map fun s =>
          (s.relabel (.ofPlaces place)).lined ⟨f.name, (place f.span).start⟩
      | some _ => [] := by
  have hn := f.fault?_relabel_eq_none_iff (.ofPlaces place)
  rw [linedFindings]
  cases hf : f.fault? with
  | none =>
    rw [hn.mpr hf, f.sightings_relabel (fun _ _ h => h) rfl, List.map_map]
    rfl
  | some fault =>
    cases hr : (f.relabel (.ofPlaces place)).fault? with
    | none =>
      rw [hn.mp hr] at hf
      cases hf
    | some fault' => rfl

/-- Start lines are all that the findings take from places. -/
theorem findings_eq_linedFindings (lines : LineMap) :
    f.findings blacklist lines = (f.relabel (.startLines lines)).linedFindings blacklist := by
  rw [findings_eq, Relabeling.startLines, linedFindings_relabel]
  cases f.fault? with
  | some fault => rfl
  | none =>
    apply List.map_congr_left
    intro s _
    cases s <;> rfl

private theorem map_unplaced_linedFindings (place : Span → Span) :
    ((f.relabel (.ofPlaces place)).linedFindings blacklist).map Finding.unplaced =
      (f.linedFindings blacklist).map Finding.unplaced := by
  rw [linedFindings_relabel, linedFindings]
  cases f.fault? with
  | some fault => rfl
  | none =>
    simp only [List.map_map]
    apply List.map_congr_left
    intro s _
    cases s <;> rfl

/-- The kinds and names of findings take nothing from places. -/
theorem map_unplaced_findings (lines : LineMap) :
    (f.findings blacklist lines).map Finding.unplaced =
      ((f.relabel .erased).linedFindings blacklist).map Finding.unplaced := by
  rw [findings_eq_linedFindings, Relabeling.startLines, Relabeling.erased,
    map_unplaced_linedFindings, map_unplaced_linedFindings]

/-- A function that is skipped, and its fault. -/
def faulty? (f : FoundFunction) : Option (FoundFunction × FunctionFault) :=
  f.fault?.map (f, ·)

end FoundFunction

namespace Module

variable (m : Module) (file : String) (blacklist : Blacklist) (lines : LineMap)

private theorem functions_ofPlaces (place : Span → Span) :
    (m.relabel (.ofPlaces place)).functions =
      m.functions.map (FoundFunction.relabel (.ofPlaces place)) :=
  m.functions_relabel rfl

private theorem findings_report :
    (m.report file blacklist lines).findings =
      (m.relabel (.startLines lines)).functions.flatMap (·.linedFindings blacklist) := by
  rw [Relabeling.startLines, functions_ofPlaces, List.flatMap_map]
  exact congrArg (m.functions.flatMap ·) (funext (·.findings_eq_linedFindings blacklist lines))

private theorem map_unplaced_findings_report :
    (m.report file blacklist lines).findings.map Finding.unplaced =
      (m.relabel .erased).functions.flatMap fun f =>
        (f.linedFindings blacklist).map Finding.unplaced := by
  rw [Relabeling.erased, functions_ofPlaces, List.flatMap_map]
  refine (List.map_flatMap ..).trans (congrArg (m.functions.flatMap ·) (funext fun f => ?_))
  exact f.map_unplaced_findings blacklist lines

private theorem skipped_report :
    (m.report file blacklist lines).skipped =
      (m.functions.filterMap FoundFunction.faulty?).map fun x =>
        ⟨x.1.ref lines, x.2.message⟩ := by
  rw [List.map_filterMap]
  refine congrArg (m.functions.filterMap ·) (funext fun f => ?_)
  rw [f.skipped?_eq, FoundFunction.faulty?, Option.map_map]
  rfl

/-- Which functions are skipped, and for what kind of reason, takes nothing from places. -/
theorem map_unplaced_faulty :
    (m.functions.filterMap FoundFunction.faulty?).map (fun x => (x.1.name, x.2.unplaced)) =
      (m.relabel .erased).functions.filterMap fun f =>
        (f.fault?.map FunctionFault.unplaced).map (f.name, ·) := by
  rw [Relabeling.erased, functions_ofPlaces, List.filterMap_map, List.map_filterMap]
  refine congrArg (m.functions.filterMap ·) (funext fun f => ?_)
  rw [Function.comp_apply, FoundFunction.fault?_relabel, FoundFunction.faulty?, Option.map_map,
    Option.map_map]
  rfl

private theorem status_report :
    (m.report file blacklist lines).status =
      if ((m.report file blacklist lines).findings.map Finding.unplaced).isEmpty then .clean
      else .flagged := by
  rw [List.isEmpty_map]
  rfl

end Module

private theorem alike_of_unplaced_eq {f f' : FunctionRef} {x x' : FunctionFault}
    (h : (f.name, x.unplaced) = (f'.name, x'.unplaced)) :
    SkippedFunction.Alike ⟨f, x.message⟩ ⟨f', x'.message⟩ := by
  obtain ⟨hn, hx⟩ := Prod.mk.inj h
  refine ⟨hn, ?_⟩
  cases x with
  | unsupportedParameter o =>
    cases x' with
    | unsupportedParameter o' => exact Or.inl ⟨o, o', rfl, rfl⟩
    | invalidExpression o' => cases hx
  | invalidExpression o =>
    cases x' with
    | unsupportedParameter o' => cases hx
    | invalidExpression o' => exact Or.inr ⟨o, o', rfl, rfl⟩

namespace Module

/-- Modules that differ only in places have reports that differ only in lines and offsets; when
their nodes start on equal lines, the findings are equal. -/
theorem report_of_erased_eq {m m' : Module} (h : m.relabel .erased = m'.relabel .erased)
    (file : String) (blacklist : Blacklist) (lines lines' : LineMap) :
    let r := m.report file blacklist lines
    let r' := m'.report file blacklist lines'
    r.file = r'.file ∧ r.status = r'.status ∧
      r.findings.map Finding.unplaced = r'.findings.map Finding.unplaced ∧
      List.Forall₂ SkippedFunction.Alike r.skipped r'.skipped ∧
      (m.relabel (.startLines lines) = m'.relabel (.startLines lines') →
        r.findings = r'.findings) := by
  have hf : (m.report file blacklist lines).findings.map Finding.unplaced =
      (m'.report file blacklist lines').findings.map Finding.unplaced := by
    rw [map_unplaced_findings_report, map_unplaced_findings_report, h]
  have hs := (m.map_unplaced_faulty).trans (h ▸ m'.map_unplaced_faulty.symm)
  refine ⟨rfl, ?_, hf, ?_, fun hl => ?_⟩
  · rw [status_report, status_report, hf]
  · rw [skipped_report, skipped_report, List.forall₂_map_left_iff, List.forall₂_map_right_iff]
    rw [← List.forall₂_eq_eq_eq, List.forall₂_map_left_iff, List.forall₂_map_right_iff] at hs
    exact hs.imp fun _ _ he => alike_of_unplaced_eq he
  · rw [findings_report, findings_report, hl]

/-- A function `f` whose second line is `x.y = z` after a gap, and a function `g` whose body holds
an expression that is none. -/
private def indented (gap : Nat) : Module :=
  ⟨[.stmt (.function ⟨1, 26 + gap⟩ "f" [.ident ⟨12, 13⟩ "x" none] (.block ⟨15, 26 + gap⟩
      [.expr ⟨17 + gap, 24 + gap⟩ (.assign ⟨17 + gap, 24 + gap⟩ "="
        (.expr (.member ⟨17 + gap, 20 + gap⟩ (.ident ⟨17 + gap, 18 + gap⟩ "x")
          (.named ⟨19 + gap, 20 + gap⟩ "y")))
        (.ident ⟨23 + gap, 24 + gap⟩ "z"))])),
    .stmt (.function ⟨27 + gap, 44 + gap⟩ "g" [] (.block ⟨40 + gap, 44 + gap⟩
      [.expr ⟨42 + gap, 42 + gap⟩ (.invalid ⟨42 + gap, 42 + gap⟩)]))]⟩

theorem report_of_indented :
    let m := indented 0
    let m' := indented 4
    let r := m.report "a.js" .arrayMutators ⟨[17, 25, 27]⟩
    let r' := m'.report "a.js" .arrayMutators ⟨[17, 29, 31]⟩
    m.relabel .erased = m'.relabel .erased ∧
      m.relabel (.startLines ⟨[17, 25, 27]⟩) = m'.relabel (.startLines ⟨[17, 29, 31]⟩) ∧
      r.findings = [.parameterMutation 2 "x" ⟨some "f", 1⟩] ∧ r.findings = r'.findings ∧
      List.Forall₂ SkippedFunction.Alike r.skipped r'.skipped ∧ r.skipped ≠ r'.skipped := by
  intro m m' r r'
  have h : m.relabel .erased = m'.relabel .erased := rfl
  have hl : m.relabel (.startLines ⟨[17, 25, 27]⟩) =
      m'.relabel (.startLines ⟨[17, 29, 31]⟩) := rfl
  obtain ⟨-, -, -, hs, hf⟩ :=
    report_of_erased_eq h "a.js" .arrayMutators ⟨[17, 25, 27]⟩ ⟨[17, 29, 31]⟩
  refine ⟨h, hl, ?_, hf hl, hs, ?_⟩
  · rw [findings_report]
    rfl
  · rw [skipped_report, skipped_report]
    decide

end Module

end SideEffectLint
