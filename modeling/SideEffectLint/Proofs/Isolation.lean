import Mathlib.Data.List.Forall2
import SideEffectLint.Proofs.Sighting

/-! Every function of a file is linted by itself: it adds its findings as one block, or one skipped
entry and no finding. The report of two lists of items is that of the first before that of the
second. -/

namespace SideEffectLint

namespace FoundFunction

/-- Some piece of the parameter list is no pattern that binds. -/
def HasUnsupportedParameter (f : FoundFunction) : Prop :=
  (∃ e, .expr e ∈ patternPieces f.params) ∨ ∃ span, .invalid span ∈ patternPieces f.params

/-- The traversal of the body comes to a place that holds no expression. -/
def ReachesInvalid (f : FoundFunction) : Prop :=
  ∃ span, .expr (.invalid span) ∈ f.body.reached

/-- What becomes of a function in the report of its file: its findings, or why it is skipped. -/
inductive Outcome (f : FoundFunction) (blacklist : Blacklist) (lines : LineMap) :
    List Finding → Option SkippedFunction → Prop where
  | linted {params : ParameterSet} {leaves : List Node} (hp : ¬ f.HasUnsupportedParameter)
      (hr : ¬ f.ReachesInvalid) (hps : ParameterSet.ofPatterns f.params = .ok params)
      (hl : f.body.leaves = .ok leaves) :
      Outcome f blacklist lines
        (leaves.filterMap
          (LintContext.find ⟨params, blacklist, ⟨f.name, lines.line f.span.start⟩, lines⟩)) none
  | unsupportedParameter {offset : Nat} (hp : f.HasUnsupportedParameter)
      (hps : ParameterSet.ofPatterns f.params = .error (.unsupportedParameter offset)) :
      Outcome f blacklist lines [] (some ⟨⟨f.name, lines.line f.span.start⟩,
        (FunctionFault.unsupportedParameter offset).message⟩)
  | invalidExpression {offset : Nat} (hp : ¬ f.HasUnsupportedParameter) (hr : f.ReachesInvalid)
      (hl : f.body.leaves = .error (.invalidExpression offset)) :
      Outcome f blacklist lines [] (some ⟨⟨f.name, lines.line f.span.start⟩,
        (FunctionFault.invalidExpression offset).message⟩)

variable (f : FoundFunction) (blacklist : Blacklist) (lines : LineMap)

theorem ofPatterns_cases :
    (¬ f.HasUnsupportedParameter ∧ ParameterSet.ofPatterns f.params = .ok (.declaredBy f.params)) ∨
    (f.HasUnsupportedParameter ∧
      ∃ offset, ParameterSet.ofPatterns f.params = .error (.unsupportedParameter offset)) := by
  rw [ParameterSet.ofPatterns_eq]
  cases h : (patternPieces f.params).findSome? Pattern.fault? with
  | none =>
    have hn := List.findSome?_eq_none_iff.mp h
    refine Or.inl ⟨?_, rfl⟩
    rintro (⟨e, he⟩ | ⟨span, hs⟩)
    · cases hn _ he
    · cases hn _ hs
  | some fault =>
    obtain ⟨p, hp, hf⟩ := List.exists_of_findSome?_eq_some h
    match p, hp, hf with
    | .expr e, hp, hf =>
      obtain rfl := Option.some.inj hf
      exact Or.inr ⟨Or.inl ⟨e, hp⟩, _, rfl⟩
    | .invalid span, hp, hf =>
      obtain rfl := Option.some.inj hf
      exact Or.inr ⟨Or.inr ⟨span, hp⟩, _, rfl⟩

theorem leaves_cases :
    (¬ f.ReachesInvalid ∧ f.body.leaves = .ok f.body.reached) ∨
    (f.ReachesInvalid ∧ ∃ offset, f.body.leaves = .error (.invalidExpression offset)) := by
  rw [Body.leaves_eq_checked, Node.checked]
  cases h : f.body.reached.findSome? Node.fault? with
  | none =>
    refine Or.inl ⟨?_, rfl⟩
    rintro ⟨span, hs⟩
    cases List.findSome?_eq_none_iff.mp h _ hs
  | some fault =>
    obtain ⟨n, hn, hf⟩ := List.exists_of_findSome?_eq_some h
    obtain ⟨span, rfl, rfl⟩ := Node.fault?_eq_some_iff.mp hf
    exact Or.inr ⟨⟨span, hn⟩, _, rfl⟩

variable {f blacklist lines}

private theorem report_of_ok {findings : List Finding}
    (h : f.lint blacklist lines = .ok findings) :
    findings = f.findings blacklist lines ∧ none = f.skipped? blacklist lines := by
  rw [FoundFunction.findings, skipped?, h]
  exact ⟨rfl, rfl⟩

private theorem report_of_error {fault : FunctionFault}
    (h : f.lint blacklist lines = .error fault) :
    [] = f.findings blacklist lines ∧
      some ⟨f.ref lines, fault.message⟩ = f.skipped? blacklist lines := by
  rw [FoundFunction.findings, skipped?, h]
  exact ⟨rfl, rfl⟩

/-- An outcome is read off what linting the function gives. -/
theorem Outcome.eq {findings : List Finding} {skipped : Option SkippedFunction}
    (h : f.Outcome blacklist lines findings skipped) :
    findings = f.findings blacklist lines ∧ skipped = f.skipped? blacklist lines := by
  cases h with
  | linted _ _ hps hl =>
    apply report_of_ok
    rw [lint, hps, hl]
    rfl
  | unsupportedParameter _ hps =>
    apply report_of_error
    rw [lint, hps]
    rfl
  | invalidExpression hp _ hl =>
    obtain ⟨_, hps⟩ := f.ofPatterns_cases.resolve_right fun h => hp h.1
    apply report_of_error
    rw [lint, hps, hl]
    rfl

variable (f blacklist lines)

private theorem exists_outcome : ∃ findings skipped, f.Outcome blacklist lines findings skipped := by
  rcases f.ofPatterns_cases with ⟨hp, hps⟩ | ⟨hp, offset, hps⟩
  · rcases f.leaves_cases with ⟨hr, hl⟩ | ⟨hr, offset, hl⟩
    · exact ⟨_, _, .linted hp hr hps hl⟩
    · exact ⟨_, _, .invalidExpression hp hr hl⟩
  · exact ⟨_, _, .unsupportedParameter hp hps⟩

/-- Every function has one outcome, and it is the one in the report. -/
theorem outcome_iff (findings : List Finding) (skipped : Option SkippedFunction) :
    f.Outcome blacklist lines findings skipped ↔
      findings = f.findings blacklist lines ∧ skipped = f.skipped? blacklist lines := by
  constructor
  · exact Outcome.eq
  · rintro ⟨rfl, rfl⟩
    obtain ⟨findings, skipped, h⟩ := f.exists_outcome blacklist lines
    obtain ⟨rfl, rfl⟩ := h.eq
    exact h

end FoundFunction

theorem FoundFunction.function_of_mem_findings {f : FoundFunction} {blacklist : Blacklist}
    {lines : LineMap} {x : Finding} (h : x ∈ f.findings blacklist lines) :
    x.function = ⟨f.name, lines.line f.span.start⟩ := by
  obtain ⟨findings, skipped, ho⟩ := f.exists_outcome blacklist lines
  rw [← ho.eq.1] at h
  cases ho with
  | linted =>
    obtain ⟨n, _, hn⟩ := List.mem_filterMap.mp h
    exact LintContext.function_of_find hn
  | unsupportedParameter => cases h
  | invalidExpression => cases h

namespace FileReport

private theorem flagged_ofFindings_iff (file : String) (findings : List Finding)
    (skipped : List SkippedFunction) :
    (ofFindings file findings skipped).status = .flagged ↔ findings ≠ [] := by
  cases findings <;> simp [ofFindings]

end FileReport

namespace Module

variable (file : String) (blacklist : Blacklist) (lines : LineMap)

private theorem functions_append (A B : List ModuleItem) :
    functions ⟨A ++ B⟩ = functions ⟨A⟩ ++ functions ⟨B⟩ :=
  List.flatMap_append

theorem flagged_report_iff (m : Module) :
    (m.report file blacklist lines).status = .flagged ↔
      (m.report file blacklist lines).findings ≠ [] :=
  FileReport.flagged_ofFindings_iff ..

private theorem findings_append (A B : List ModuleItem) :
    (report ⟨A ++ B⟩ file blacklist lines).findings =
      (report ⟨A⟩ file blacklist lines).findings ++ (report ⟨B⟩ file blacklist lines).findings := by
  simp only [report, FileReport.ofFindings, functions_append, List.flatMap_append]

private theorem skipped_append (A B : List ModuleItem) :
    (report ⟨A ++ B⟩ file blacklist lines).skipped =
      (report ⟨A⟩ file blacklist lines).skipped ++ (report ⟨B⟩ file blacklist lines).skipped := by
  simp only [report, FileReport.ofFindings, functions_append, List.filterMap_append]

/-- The report of two lists of items puts the second after the first, and is flagged when one of
theirs is. It is made of the outcomes of the functions in the order of discovery, and no function
has another outcome than that. -/
theorem report_compositional_isolating :
    (∀ A B : List ModuleItem,
      let a := report ⟨A⟩ file blacklist lines
      let b := report ⟨B⟩ file blacklist lines
      let r := report ⟨A ++ B⟩ file blacklist lines
      r.findings = a.findings ++ b.findings ∧ r.skipped = a.skipped ++ b.skipped ∧
        (r.status = .flagged ↔ a.status = .flagged ∨ b.status = .flagged)) ∧
    ∀ m : Module,
      let r := m.report file blacklist lines
      ∃ outcomes : List (List Finding × Option SkippedFunction),
        r.findings = outcomes.flatMap Prod.fst ∧ r.skipped = outcomes.filterMap Prod.snd ∧
        List.Forall₂ (fun f o =>
          (∀ findings skipped,
            f.Outcome blacklist lines findings skipped ↔ (findings, skipped) = o) ∧
          ∀ x ∈ o.1, x.function = ⟨f.name, lines.line f.span.start⟩) m.functions outcomes := by
  constructor
  · intro A B
    refine ⟨findings_append .., skipped_append .., ?_⟩
    rw [flagged_report_iff, flagged_report_iff, flagged_report_iff, findings_append]
    simp only [ne_eq, List.append_eq_nil_iff]
    exact Classical.not_and_iff_not_or_not
  · intro m
    refine ⟨m.functions.map fun f => (f.findings blacklist lines, f.skipped? blacklist lines),
      ?_, ?_, ?_⟩
    · rw [List.flatMap_map]
      rfl
    · rw [List.filterMap_map]
      rfl
    · rw [List.forall₂_map_right_iff, List.forall₂_same]
      intro f _
      refine ⟨fun findings skipped => ?_, fun x hx => FoundFunction.function_of_mem_findings hx⟩
      rw [Prod.mk.injEq]
      exact f.outcome_iff blacklist lines findings skipped

end Module

end SideEffectLint
