import SideEffectLint.Proofs.Outline

/-! Which names a parameter list binds and when it has none, told by places in the list. A place is the
numbers of the parts that lead to a pattern; places are ordered outside in and left to right. -/

namespace SideEffectLint

/-- The pattern that a member stands for; a shorthand is an identifier, with or without a default. -/
def PatternMember.part : PatternMember → Pattern
  | .keyValue _ value => value
  | .shorthand span name _ => .ident span name none
  | .rest _ argument => argument

namespace Pattern

/-- The patterns that a pattern hands parts of its value to. -/
def parts : Pattern → List Pattern
  | .array _ elements _ => elements
  | .object _ members _ => members.map PatternMember.part
  | .rest _ argument _ => [argument]
  | .withDefault _ left _ => [left]
  | .ident .. | .expr _ | .hole | .invalid _ => []

/-- The pattern cannot be a parameter, and starts at `offset`. -/
inductive Unsupported : Pattern → Nat → Prop
  | expr (e : Expr) : Unsupported (.expr e) e.span.start
  | invalid (span : Span) : Unsupported (.invalid span) span.start

end Pattern

/-- The pattern stands at a place of the list. -/
inductive PatternAt : List Pattern → List Nat → Pattern → Prop
  | here {ps : List Pattern} {i : Nat} {p : Pattern} (hp : ps[i]? = some p) : PatternAt ps [i] p
  | inside {ps : List Pattern} {i : Nat} {p q : Pattern} {place : List Nat} (hp : ps[i]? = some p)
    (hq : PatternAt p.parts place q) : PatternAt ps (i :: place) q

/-- A pattern that cannot be a parameter starts at `offset`, and no other one stands at an earlier
place. -/
def FirstUnsupported (ps : List Pattern) (offset : Nat) : Prop :=
  ∃ place p, PatternAt ps place p ∧ p.Unsupported offset ∧
    ∀ place' p' offset', PatternAt ps place' p' → p'.Unsupported offset' →
      place' = place ∨ List.Lex (· < ·) place place'

namespace PatternAt

variable {ps : List Pattern} {p q : Pattern} {place : List Nat}

private theorem not_nil : ¬ PatternAt [] place q := by
  rintro (hp | ⟨hp, -⟩) <;> cases hp

private theorem not_empty : ¬ PatternAt ps [] q := nofun

/-- A place is that of the first pattern, one inside of it, or one further on. -/
theorem cons_iff : PatternAt (p :: ps) place q ↔ (place = [0] ∧ q = p) ∨
    (∃ inner, place = 0 :: inner ∧ PatternAt p.parts inner q) ∨
      ∃ i rest, place = (i + 1) :: rest ∧ PatternAt ps (i :: rest) q := by
  constructor
  · intro h
    cases h with
    | @here _ i _ hp =>
      cases i with
      | zero => exact .inl ⟨rfl, (Option.some.inj hp).symm⟩
      | succ i => exact .inr (.inr ⟨i, [], rfl, .here hp⟩)
    | @inside _ i first _ inner hp hq =>
      cases i with
      | zero =>
        obtain rfl : p = first := Option.some.inj hp
        exact .inr (.inl ⟨inner, rfl, hq⟩)
      | succ i => exact .inr (.inr ⟨i, inner, rfl, .inside hp hq⟩)
  · rintro (⟨rfl, rfl⟩ | ⟨inner, rfl, h⟩ | ⟨i, rest, rfl, h⟩)
    · exact .here rfl
    · exact .inside rfl h
    · cases h with
      | here hp => exact .here hp
      | inside hp hq => exact .inside hp hq

/-- One pattern stands at a place. -/
theorem unique (h : PatternAt ps place p) (h' : PatternAt ps place q) : p = q := by
  induction h with
  | here hp =>
    cases h' with
    | here hp' => exact Option.some.inj (hp.symm.trans hp')
    | inside _ hq => exact absurd hq not_empty
  | inside hp hq ih =>
    cases h' with
    | here => exact absurd hq not_empty
    | inside hp' hq' =>
      obtain rfl := Option.some.inj (hp.symm.trans hp')
      exact ih hq'

end PatternAt

private theorem memberPieces_eq (ms : List PatternMember) :
    memberPieces ms = patternPieces (ms.map PatternMember.part) := by
  induction ms with
  | nil => rfl
  | cons m ms ih =>
    rw [memberPieces, List.map_cons, patternPieces, ih]
    cases m <;> rfl

theorem Pattern.pieces_eq (p : Pattern) : p.pieces = p :: patternPieces p.parts := by
  cases p with
  | object span members type => rw [pieces, parts, memberPieces_eq]
  | rest span argument type | withDefault span argument value =>
    rw [pieces, parts, patternPieces, patternPieces, List.append_nil]
  | array | ident | expr | hole | invalid => rfl

private theorem patternPieces_cons (p : Pattern) (ps : List Pattern) :
    patternPieces (p :: ps) = p :: (patternPieces p.parts ++ patternPieces ps) := by
  rw [patternPieces, p.pieces_eq, List.cons_append]

section

variable {motive : List Pattern → Prop} (nil : motive [])
  (cons : ∀ p ps, motive p.parts → motive ps → motive (p :: ps))

include nil cons

mutual

private theorem Pattern.parts_induction : ∀ p : Pattern, motive p.parts
  | .array _ elements _ => patterns_induction elements
  | .object _ members _ => members_induction members
  | .rest _ argument _ => cons argument [] argument.parts_induction nil
  | .withDefault _ left _ => cons left [] left.parts_induction nil
  | .ident .. | .expr _ | .hole | .invalid _ => nil

/-- What holds of the parts of the first pattern and of the patterns behind it holds of all. -/
theorem patterns_induction : ∀ ps : List Pattern, motive ps
  | [] => nil
  | p :: ps => cons p ps p.parts_induction (patterns_induction ps)

private theorem members_induction : ∀ ms : List PatternMember, motive (ms.map PatternMember.part)
  | [] => nil
  | .keyValue _ value :: ms => cons value _ value.parts_induction (members_induction ms)
  | .shorthand span name _ :: ms => cons (.ident span name none) _ nil (members_induction ms)
  | .rest _ argument :: ms => cons argument _ argument.parts_induction (members_induction ms)

end

end

/-- The pieces of a list are the patterns at its places. -/
theorem mem_patternPieces_iff {ps : List Pattern} {q : Pattern} :
    q ∈ patternPieces ps ↔ ∃ place, PatternAt ps place q := by
  induction ps using patterns_induction with
  | nil =>
    constructor
    · intro h
      cases h
    · rintro ⟨place, h⟩
      exact absurd h PatternAt.not_nil
  | cons p ps ihp ihs =>
    rw [patternPieces_cons, List.mem_cons, List.mem_append, ihp, ihs]
    constructor
    · rintro (rfl | ⟨place, h⟩ | ⟨place, h⟩)
      · exact ⟨[0], PatternAt.cons_iff.mpr (.inl ⟨rfl, rfl⟩)⟩
      · exact ⟨0 :: place, PatternAt.cons_iff.mpr (.inr (.inl ⟨place, rfl, h⟩))⟩
      · cases place with
        | nil => exact absurd h PatternAt.not_empty
        | cons i rest =>
          exact ⟨(i + 1) :: rest, PatternAt.cons_iff.mpr (.inr (.inr ⟨i, rest, rfl, h⟩))⟩
    · rintro ⟨place, h⟩
      rcases PatternAt.cons_iff.mp h with ⟨-, hq⟩ | ⟨inner, -, h⟩ | ⟨i, rest, -, h⟩
      · exact .inl hq
      · exact .inr (.inl ⟨inner, h⟩)
      · exact .inr (.inr ⟨i :: rest, h⟩)

namespace Pattern

theorem fault?_eq_some_iff {p : Pattern} {fault : FunctionFault} :
    p.fault? = some fault ↔ ∃ offset, p.Unsupported offset ∧ fault = .unsupportedParameter offset := by
  constructor
  · intro h
    cases p with
    | expr e => exact ⟨_, .expr e, (Option.some.inj h).symm⟩
    | invalid span => exact ⟨_, .invalid span, (Option.some.inj h).symm⟩
    | ident | array | object | rest | withDefault | hole => cases h
  · rintro ⟨offset, hu, rfl⟩
    cases hu <;> rfl

theorem fault?_eq_none_iff {p : Pattern} : p.fault? = none ↔ ∀ offset, ¬ p.Unsupported offset := by
  constructor
  · intro h offset hu
    have hf := fault?_eq_some_iff.mpr ⟨offset, hu, rfl⟩
    rw [h] at hf
    cases hf
  · intro h
    cases hf : p.fault? with
    | none => rfl
    | some fault =>
      obtain ⟨offset, hu, -⟩ := fault?_eq_some_iff.mp hf
      exact absurd hu (h offset)

end Pattern

/-- Without a fault among the pieces no pattern of the list is unsupported. -/
theorem not_unsupported_of_findSome? {ps : List Pattern} {place : List Nat} {p : Pattern}
    {offset : Nat} (h : (patternPieces ps).findSome? Pattern.fault? = none)
    (hp : PatternAt ps place p) : ¬ p.Unsupported offset := by
  have hm := mem_patternPieces_iff.mpr ⟨place, hp⟩
  have hf := List.findSome?_eq_none_iff.mp h p hm
  exact Pattern.fault?_eq_none_iff.mp hf offset

namespace FirstUnsupported

variable {p : Pattern} {ps : List Pattern} {offset offset' : Nat}

private theorem of_head (hu : p.Unsupported offset) : FirstUnsupported (p :: ps) offset := by
  refine ⟨[0], p, PatternAt.cons_iff.mpr (.inl ⟨rfl, rfl⟩), hu, ?_⟩
  intro place' p' offset' hp' _
  rcases PatternAt.cons_iff.mp hp' with ⟨hplace, -⟩ | ⟨inner, rfl, hi⟩ | ⟨i, rest, rfl, -⟩
  · exact .inl hplace
  · cases inner with
    | nil => exact absurd hi PatternAt.not_empty
    | cons j inner => exact .inr (.cons .nil)
  · exact .inr (.rel (Nat.succ_pos i))

private theorem of_parts (h : FirstUnsupported p.parts offset) (hself : ∀ offset, ¬ p.Unsupported offset) :
    FirstUnsupported (p :: ps) offset := by
  obtain ⟨place, q, hq, hu, hfirst⟩ := h
  refine ⟨0 :: place, q, PatternAt.cons_iff.mpr (.inr (.inl ⟨place, rfl, hq⟩)), hu, ?_⟩
  intro place' p' offset' hp' hu'
  rcases PatternAt.cons_iff.mp hp' with ⟨-, rfl⟩ | ⟨inner, rfl, hi⟩ | ⟨i, rest, rfl, -⟩
  · exact absurd hu' (hself offset')
  · rcases hfirst inner p' offset' hi hu' with rfl | hlt
    · exact .inl rfl
    · exact .inr (.cons hlt)
  · exact .inr (.rel (Nat.succ_pos i))

private theorem of_tail (h : FirstUnsupported ps offset) (hself : ∀ offset, ¬ p.Unsupported offset)
    (hparts : ∀ place q offset, PatternAt p.parts place q → ¬ q.Unsupported offset) :
    FirstUnsupported (p :: ps) offset := by
  obtain ⟨place, q, hq, hu, hfirst⟩ := h
  cases place with
  | nil => exact absurd hq PatternAt.not_empty
  | cons j place =>
    refine ⟨(j + 1) :: place, q, PatternAt.cons_iff.mpr (.inr (.inr ⟨j, place, rfl, hq⟩)), hu, ?_⟩
    intro place' p' offset' hp' hu'
    rcases PatternAt.cons_iff.mp hp' with ⟨-, rfl⟩ | ⟨inner, rfl, hi⟩ | ⟨i, rest, rfl, hr⟩
    · exact absurd hu' (hself offset')
    · exact absurd hu' (hparts inner p' offset' hi)
    · rcases hfirst (i :: rest) p' offset' hr hu' with heq | hlt
      · cases heq
        exact .inl rfl
      · cases hlt with
        | rel hij => exact .inr (.rel (Nat.succ_lt_succ hij))
        | cons hrest => exact .inr (.cons hrest)

theorem unique (h : FirstUnsupported ps offset) (h' : FirstUnsupported ps offset') :
    offset = offset' := by
  obtain ⟨place, p, hp, hu, hfirst⟩ := h
  obtain ⟨place', p', hp', hu', hfirst'⟩ := h'
  have hplace : place' = place := by
    rcases hfirst place' p' offset' hp' hu' with heq | hlt
    · exact heq
    · rcases hfirst' place p offset hp hu with heq | hlt'
      · exact heq.symm
      · exact absurd hlt' (List.lex_asymm (fun hij hji => Nat.lt_asymm hij hji) hlt)
  subst hplace
  obtain rfl := hp.unique hp'
  cases hu <;> cases hu' <;> rfl

end FirstUnsupported

/-- Pieces come in the order of their places. -/
theorem firstUnsupported_of_findSome? {ps : List Pattern} {offset : Nat}
    (h : (patternPieces ps).findSome? Pattern.fault? = some (.unsupportedParameter offset)) :
    FirstUnsupported ps offset := by
  induction ps using patterns_induction with
  | nil => cases h
  | cons p ps ihp ihs =>
    -- The pattern itself comes first, then what is inside of it, then the patterns behind it.
    rw [patternPieces_cons, List.findSome?_cons] at h
    cases hf : p.fault? with
    | some fault =>
      rw [hf] at h
      cases h
      obtain ⟨_, hu, heq⟩ := Pattern.fault?_eq_some_iff.mp hf
      cases heq
      exact .of_head hu
    | none =>
      rw [hf, List.findSome?_append] at h
      have hself := Pattern.fault?_eq_none_iff.mp hf
      cases hparts : (patternPieces p.parts).findSome? Pattern.fault? with
      | some fault =>
        rw [hparts] at h
        cases h
        exact .of_parts (ihp hparts) hself
      | none =>
        rw [hparts] at h
        exact .of_tail (ihs h) hself fun place q offset hq =>
          not_unsupported_of_findSome? hparts hq

namespace ParameterSet

private theorem findSome?_pieces_eq (params : List Pattern) :
    (∃ offset, (patternPieces params).findSome? Pattern.fault? =
        some (.unsupportedParameter offset) ∧ FirstUnsupported params offset) ∨
      (patternPieces params).findSome? Pattern.fault? = none := by
  cases h : (patternPieces params).findSome? Pattern.fault? with
  | none => exact .inr rfl
  | some fault =>
    obtain ⟨p, -, hf⟩ := List.exists_of_findSome?_eq_some h
    obtain ⟨offset, -, rfl⟩ := Pattern.fault?_eq_some_iff.mp hf
    exact .inl ⟨offset, rfl, firstUnsupported_of_findSome? h⟩

/-- A list of parameters has a first pattern that cannot be one, and that is its fault, or it binds the
names of the identifiers at its places. -/
theorem ofPatterns_cases (params : List Pattern) :
    (∃ offset, ofPatterns params = .error (.unsupportedParameter offset) ∧
        FirstUnsupported params offset) ∨
      (ofPatterns params = .ok (declaredBy params) ∧
        ∀ place p offset, PatternAt params place p → ¬ p.Unsupported offset) := by
  rw [ofPatterns_eq]
  rcases findSome?_pieces_eq params with ⟨offset, h, hfirst⟩ | h
  · rw [h]
    exact .inl ⟨offset, rfl, hfirst⟩
  · rw [h]
    exact .inr ⟨rfl, fun place p offset hp => not_unsupported_of_findSome? h hp⟩

theorem contains_declaredBy_iff {params : List Pattern} {name : String} :
    (declaredBy params).contains name ↔
      ∃ place span type, PatternAt params place (.ident span name type) := by
  rw [contains, List.contains_iff_mem, declaredBy, List.mem_filterMap]
  constructor
  · rintro ⟨p, hm, hn⟩
    cases p with
    | ident span text type =>
      obtain rfl : text = name := Option.some.inj hn
      obtain ⟨place, hp⟩ := mem_patternPieces_iff.mp hm
      exact ⟨place, span, type, hp⟩
    | array | object | rest | withDefault | expr | hole | invalid => cases hn
  · rintro ⟨place, span, type, hp⟩
    exact ⟨.ident span name type, mem_patternPieces_iff.mpr ⟨place, hp⟩, rfl⟩

/-- A list of parameters has no names when a pattern in it cannot be a parameter, and the fault points
at the first such pattern. Otherwise it binds the names of the identifiers at its places. Defaults, keys
and types have no places: lists that differ in nothing else bind the same names. -/
theorem ofPatterns_of_places (params : List Pattern) :
    ((∃ fault, ofPatterns params = .error fault) ↔
      ∃ place p offset, PatternAt params place p ∧ p.Unsupported offset) ∧
    (∀ fault, ofPatterns params = .error fault ↔
      ∃ offset, FirstUnsupported params offset ∧ fault = .unsupportedParameter offset) ∧
    (∀ set, ofPatterns params = .ok set → ∀ name, set.contains name ↔
      ∃ place span type, PatternAt params place (.ident span name type)) ∧
    ∀ params', patternsOutline params' = patternsOutline params →
      ofPatterns params' = ofPatterns params := by
  refine ⟨?_, ?_, ?_, ?_⟩
  · rcases ofPatterns_cases params with ⟨offset, h, place, p, hp, hu, -⟩ | ⟨h, hn⟩
    · exact ⟨fun _ => ⟨place, p, offset, hp, hu⟩, fun _ => ⟨_, h⟩⟩
    · constructor
      · rintro ⟨fault, hf⟩
        rw [h] at hf
        cases hf
      · rintro ⟨place, p, offset, hp, hu⟩
        exact absurd hu (hn place p offset hp)
  · intro fault
    rcases ofPatterns_cases params with ⟨offset, h, hfirst⟩ | ⟨h, hn⟩
    · rw [h]
      constructor
      · intro hf
        exact ⟨offset, hfirst, (Except.error.inj hf).symm⟩
      · rintro ⟨offset', hfirst', rfl⟩
        rw [hfirst.unique hfirst']
    · rw [h]
      constructor
      · intro hf
        cases hf
      · rintro ⟨offset, ⟨place, p, hp, hu, -⟩, -⟩
        exact absurd hu (hn place p offset hp)
  · intro set hset name
    rcases ofPatterns_cases params with ⟨offset, h, -⟩ | ⟨h, -⟩
    · rw [h] at hset
      cases hset
    · rw [h] at hset
      cases hset
      exact contains_declaredBy_iff
  · intro params' h
    rw [ofPatterns, ofPatterns, ← patternBindings_outline params', h, patternBindings_outline]

end ParameterSet

end SideEffectLint
