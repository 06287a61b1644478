import Mathlib.Logic.Relation
import SideEffectLint.Proofs.Json.Leniency
import SideEffectLint.Proofs.RoundTrip

/-! Other ways to write a report down. Its JSON value may have the members of any of its objects in
another order, members that mean nothing, and defaults where a member was left out; it still stands
for the same report. -/

namespace SideEffectLint

open Json (Decoder Member Record Tagged Value)

/-- What a part of a report is told as, by where it stands. -/
inductive ReportPlace where
  | report
  | file
  | finding
  | skipped
  | failure
  | function
  | list (item : ReportPlace)

namespace ReportPlace

def Entry : ReportPlace → Type
  | report => ScanReport
  | file => FileReport
  | finding => Finding
  | skipped => SkippedFunction
  | failure => FileFailure
  | function => FunctionRef
  | list item => List item.Entry

def decoder : (p : ReportPlace) → Decoder p.Entry
  | report => ScanReport.decoder
  | file => FileReport.decoder
  | finding => Finding.decoder
  | skipped => SkippedFunction.decoder
  | failure => FileFailure.decoder
  | function => FunctionRef.decoder
  | list item => item.decoder.list

/-- The fields of a finding of the kind. -/
def fieldsOf : Value → List String
  | .scalar (.string kind) =>
    if kind = "ParameterMutation" then ["line", "parameter", "function"]
    else if kind = "BlacklistedCall" then ["line", "method", "function"]
    else []
  | _ => []

/-- The names that mean something among the members. -/
def names : ReportPlace → List Member → List String
  | report, _ => ["files", "failures"]
  | file, _ => ["file", "status", "findings", "skipped_functions"]
  | finding, ms => "kind" :: (((Value.object ms).member? "kind").map fieldsOf).getD []
  | skipped, _ => ["function", "reason"]
  | failure, _ => ["file", "reason"]
  | function, _ => ["name", "line"]
  | list _, _ => []

/-- The members that may be left out, with what they are then taken to hold. -/
def defaults : ReportPlace → List (String × Value)
  | report => [("failures", .array [])]
  | file => [("findings", .array []), ("skipped_functions", .array [])]
  | function => [("name", .scalar .null)]
  | _ => []

/-- A member of that name tells a part of its own. -/
inductive Holds : ReportPlace → String → ReportPlace → Prop
  | files : Holds report "files" (list file)
  | failures : Holds report "failures" (list failure)
  | findings : Holds file "findings" (list finding)
  | skippedFunctions : Holds file "skipped_functions" (list skipped)
  | findingFunction : Holds finding "function" function
  | skippedFunction : Holds skipped "function" function

/-- One change, at any depth, that makes no difference to a reader: objects get their members in another
order, a member of another name or a default that was left out; what a member of another name holds may
change in any way. -/
inductive Varies : ReportPlace → Value → Value → Prop
  | permuted {p : ReportPlace} {ms ms' : List Member} (h : ms.Perm ms') :
    Varies p (.object ms) (.object ms')
  | inserted {p : ReportPlace} {before after : List Member} {key : String} {v : Value}
    (h : key ∉ p.names (before ++ after)) :
    Varies p (.object (before ++ after)) (.object (before ++ .mk key v :: after))
  | replaced {p : ReportPlace} {before after : List Member} {key : String} {v w : Value}
    (h : key ∉ p.names (before ++ after)) :
    Varies p (.object (before ++ .mk key v :: after)) (.object (before ++ .mk key w :: after))
  | written {p : ReportPlace} {before after : List Member} {key : String} {v : Value}
    (hd : (key, v) ∈ p.defaults) (h : ∀ m ∈ before ++ after, m.key ≠ key) :
    Varies p (.object (before ++ after)) (.object (before ++ .mk key v :: after))
  | member {p q : ReportPlace} {before after : List Member} {key : String} {v w : Value}
    (hq : p.Holds key q) (h : Varies q v w) :
    Varies p (.object (before ++ .mk key v :: after)) (.object (before ++ .mk key w :: after))
  | item {p : ReportPlace} {before after : List Value} {v w : Value} (h : Varies p v w) :
    Varies (list p) (.array (before ++ v :: after)) (.array (before ++ w :: after))

private theorem isLenient_report :
    ScanReport.decoder.IsLenient (fun _ => ["files", "failures"]) [("failures", .array [])] := by
  refine Record.isLenient (List.pairwise_pair.mpr (Record.commute_map fun _ _ _ => rfl)) rfl ?_
  rintro key v hd
  obtain ⟨rfl, rfl⟩ : key = "failures" ∧ v = .array [] := by simpa using hd
  exact ⟨_, _, rfl, by simp [required, defaulted], rfl, rfl⟩

private theorem isLenient_file : FileReport.decoder.IsLenient
    (fun _ => ["file", "status", "findings", "skipped_functions"])
    [("findings", .array []), ("skipped_functions", .array [])] := by
  refine Record.isLenient ?_ rfl ?_
  · simp only [Record.Independent, List.pairwise_cons, List.forall_mem_cons, List.not_mem_nil,
      IsEmpty.forall_iff, implies_true, List.Pairwise.nil, and_true]
    and_intros
    all_goals exact Record.commute_map fun _ _ _ => rfl
  · rintro key v hd
    obtain ⟨rfl, rfl⟩ | ⟨rfl, rfl⟩ : key = "findings" ∧ v = .array [] ∨
      key = "skipped_functions" ∧ v = .array [] := by simpa using hd
    all_goals exact ⟨_, _, rfl, by simp [required, defaulted], rfl, rfl⟩

private theorem isLenient_parts (kind subject : String) :
    (Finding.partsDecoder kind subject).IsLenient (fun _ => ["line", subject, "function"]) [] := by
  refine Record.isLenient ?_ rfl nofun
  simp only [Record.Independent, List.pairwise_cons, List.forall_mem_cons, List.not_mem_nil,
    IsEmpty.forall_iff, implies_true, List.Pairwise.nil, and_true]
  and_intros
  all_goals exact Record.commute_map fun _ _ _ => rfl

private theorem isLenient_skipped :
    SkippedFunction.decoder.IsLenient (fun _ => ["function", "reason"]) [] :=
  Record.isLenient (List.pairwise_pair.mpr (Record.commute_map fun _ _ _ => rfl)) rfl nofun

private theorem isLenient_failure : FileFailure.decoder.IsLenient (fun _ => ["file", "reason"]) [] :=
  Record.isLenient (List.pairwise_pair.mpr (Record.commute_map fun _ _ _ => rfl)) rfl nofun

private theorem isLenient_function :
    FunctionRef.decoder.IsLenient (fun _ => ["name", "line"]) [("name", .scalar .null)] := by
  refine Record.isLenient (List.pairwise_pair.mpr (Record.commute_map fun _ _ _ => rfl)) rfl ?_
  rintro key v hd
  obtain ⟨rfl, rfl⟩ : key = "name" ∧ v = .scalar .null := by simpa using hd
  exact ⟨_, _, rfl, by simp [required, defaulted], rfl, rfl⟩

/-- The findings that there are, by the name of their kind. -/
private def kinds : List (String × Decoder Finding) :=
  [("ParameterMutation", (Finding.partsDecoder "ParameterMutation" "parameter").map fun p =>
      .parameterMutation p.line p.subject p.function),
    ("BlacklistedCall", (Finding.partsDecoder "BlacklistedCall" "method").map fun p =>
      .blacklistedCall p.line p.subject p.function)]

/-- Every kind of finding holds the same parts, its subject under a name of its own. -/
private theorem exists_parts {kind : Value} {d : Decoder Finding}
    (h : (Decoder.choiceName kinds).ofValue kind = .ok d) : ∃ name subject f,
      d = (Finding.partsDecoder name subject).map f ∧ subject ≠ "function" ∧
        fieldsOf kind = ["line", subject, "function"] := by
  cases kind with
  | array vs => cases h
  | object ms => cases h
  | scalar s =>
    cases s with
    | null => cases h
    | bool b => cases h
    | number n => cases h
    | string name =>
      change Decoder.lookUp kinds name = .ok d at h
      rw [Decoder.lookUp, kinds, List.find?_cons, List.find?_cons] at h
      by_cases hp : name = "ParameterMutation"
      · subst hp
        obtain rfl := Except.ok.inj h
        exact ⟨_, _, _, rfl, by decide, rfl⟩
      · by_cases hb : name = "BlacklistedCall"
        · subst hb
          obtain rfl := Except.ok.inj h
          exact ⟨_, _, _, rfl, by decide, rfl⟩
        · simp [Ne.symm hp, Ne.symm hb] at h

private theorem isLenient_finding : Finding.decoder.IsLenient (names finding) [] := by
  refine Tagged.isLenient fun kind d hd => ?_
  obtain ⟨name, subject, f, rfl, -, hfields⟩ := exists_parts hd
  rw [hfields]
  exact (isLenient_parts name subject).map f

theorem isLenient (p : ReportPlace) : p.decoder.IsLenient p.names p.defaults := by
  cases p with
  | report => exact isLenient_report
  | file => exact isLenient_file
  | finding => exact isLenient_finding
  | skipped => exact isLenient_skipped
  | failure => exact isLenient_failure
  | function => exact isLenient_function
  | list item => exact Decoder.isLenient_list _ _ _

theorem Holds.keeps {p q : ReportPlace} {key : String} {v w : Value} (hq : p.Holds key q)
    (h : q.decoder.Keeps v w) (ms : List Member) :
    p.decoder.Keeps (.object (.mk key v :: ms)) (.object (.mk key w :: ms)) := by
  cases hq with
  | files => exact Record.keeps_member rfl (h.map _)
  | failures => exact Record.keeps_member rfl (h.map _)
  | findings => exact Record.keeps_member rfl (h.map _)
  | skippedFunctions => exact Record.keeps_member rfl (h.map _)
  | findingFunction =>
    refine Tagged.keeps_member (by decide) fun kind d hd ms => ?_
    obtain ⟨name, subject, f, rfl, hs, -⟩ := exists_parts hd
    let field : Json.RecordField Finding.Parts :=
      required "function" FunctionRef.decoder fun function p => { p with function }
    refine Decoder.Keeps.map (Record.keeps_member (f := field) ?_ (h.map _)) f
    simp [field, required, hs]
  | skippedFunction => exact Record.keeps_member rfl (h.map _)

variable {p : ReportPlace} {v w : Value}

theorem Varies.keeps (h : p.Varies v w) : p.decoder.Keeps v w := by
  induction h with
  | @permuted p ms ms' hp => exact p.isLenient.permuted hp
  | @inserted p before after key v hk =>
    have hfront : p.decoder.Keeps (.object (before ++ after)) (.object (.mk key v :: (before ++ after))) :=
      fun a => (p.isLenient.passes hk a).mpr
    exact hfront.trans (p.isLenient.permuted List.perm_middle.symm)
  | @replaced p before after key v w hk =>
    have hback : p.decoder.Keeps (.object (.mk key v :: (before ++ after)))
        (.object (.mk key w :: (before ++ after))) :=
      fun a ha => (p.isLenient.passes hk a).mpr ((p.isLenient.passes hk a).mp ha)
    exact (p.isLenient.permuted List.perm_middle).trans
      (hback.trans (p.isLenient.permuted List.perm_middle.symm))
  | @written p before after key v hd hk =>
    exact (p.isLenient.written hd hk).trans (p.isLenient.permuted List.perm_middle.symm)
  | @member p q before after key v w hq _ ih =>
    exact (p.isLenient.permuted List.perm_middle).trans
      ((hq.keeps ih _).trans (p.isLenient.permuted List.perm_middle.symm))
  | @item p before after v w _ ih => exact ih.item before after

end ReportPlace

namespace ScanReport

/-- However often the value of a report is varied, it is read as that report, and so is each text of the
value, however it is written. -/
theorem ofValue_of_varied {r : ScanReport} (h : r.HasWordLines) {v : Value}
    (hv : Relation.ReflTransGen (ReportPlace.Varies .report) r.toValue v) :
    decoder.ofValue v = .ok r ∧
      ∀ text, Decoder.anything.decode text = .ok v → ofJson text = .ok r := by
  have hvalue : decoder.ofValue v = .ok r := by
    induction hv with
    | refl => exact (@decodes 0 r h).ofValue
    | tail _ hstep ih => exact hstep.keeps r ih
  exact ⟨hvalue, fun _ ht => agrees.decode ht hvalue⟩

/-- A finding in a function without a name, in a file without any other. -/
private def single : ScanReport :=
  ⟨[⟨"a.js", .flagged, [.parameterMutation 1 "p" ⟨none, 2⟩], []⟩], []⟩

/-- The members of a report of which the finding is told by `finding`. -/
private def membersOf (finding : Value) : List Member :=
  [.mk "files" (.array [.object [.mk "file" (.string "a.js"), .mk "status" (.string "flagged"),
    .mk "findings" (.array [finding])]])]

/-- The members of the finding with its kind at the end, of which `function` tells the function. -/
private def turned (function : List Member) : Value :=
  .object [.mk "line" (.natural 1), .mk "parameter" (.string "p"), .mk "function" (.object function),
    .mk "kind" (.string "ParameterMutation")]

private theorem varies_membersOf {v w : Value} (h : ReportPlace.Varies .finding v w) :
    ReportPlace.Varies .report (.object (membersOf v)) (.object (membersOf w)) := by
  have hfindings := @ReportPlace.Varies.item _ [] [] _ _ h
  have hfile := @ReportPlace.Varies.member _ _ [.mk "file" (.string "a.js"),
    .mk "status" (.string "flagged")] [] _ _ _ .findings hfindings
  exact @ReportPlace.Varies.member _ _ [] [] _ _ _ .files (@ReportPlace.Varies.item _ [] [] _ _ hfile)

theorem ofValue_of_varied_single :
    let function : List Member := [.mk "name" (.scalar .null), .mk "line" (.natural 2)]
    let v := .object (.mk "tool" (.array [.object []]) :: .mk "failures" (.array []) ::
      membersOf (turned function))
    single.HasWordLines ∧ Relation.ReflTransGen (ReportPlace.Varies .report) single.toValue v ∧
      decoder.ofValue v = .ok single ∧ ofJson v.render = .ok single := by
  intro function v
  have hlines : single.HasWordLines := by
    simp [HasWordLines, single, FileReport.HasWordLines, Finding.HasWordLines, Finding.line,
      Finding.function, UInt32.size]
  have hturned : ReportPlace.Varies .report single.toValue
      (.object (membersOf (turned [.mk "line" (.natural 2)]))) :=
    varies_membersOf (.permuted (List.perm_append_singleton _ _).symm)
  have hname : ReportPlace.Varies .report (.object (membersOf (turned [.mk "line" (.natural 2)])))
      (.object (membersOf (turned function))) := by
    refine varies_membersOf (@ReportPlace.Varies.member _ _ [_, _] [_] _ _ _ .findingFunction ?_)
    exact @ReportPlace.Varies.written _ [] _ _ _ (List.mem_singleton_self _) (by simp [Member.key])
  have hfailures : ReportPlace.Varies .report (.object (membersOf (turned function)))
      (.object (.mk "failures" (.array []) :: membersOf (turned function))) :=
    @ReportPlace.Varies.written _ [] _ _ _ (List.mem_singleton_self _) (by simp [Member.key])
  have htool : ReportPlace.Varies .report
      (.object (.mk "failures" (.array []) :: membersOf (turned function))) v :=
    @ReportPlace.Varies.inserted _ [] _ _ _ (by simp [ReportPlace.names])
  have hv : Relation.ReflTransGen (ReportPlace.Varies .report) single.toValue v :=
    .tail (.tail (.tail (.single hturned) hname) hfailures) htool
  obtain ⟨hvalue, htext⟩ := ofValue_of_varied hlines hv
  have hfits : v.Fits Decoder.maxDepth := by
    simp [v, function, membersOf, turned, Decoder.maxDepth, Value.Fits, Value.itemsFit, Value.membersFit,
      Json.Scalar.IsPlain, UInt64.size]
  exact ⟨hlines, hv, hvalue, htext v.render (Decoder.decode_anything_render hfits)⟩

end ScanReport

end SideEffectLint
