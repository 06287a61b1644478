import SideEffectLint.Json.Value

/-! Objects with their keys in order: of the members with one key the last one is kept. -/

namespace SideEffectLint.Json

namespace Value

variable {key : String} {v w : Value}

/-- The object has a member with the key, and none of those after it has that key. -/
def HasLast (key : String) (v w : Value) : Prop :=
  ∃ before after, v = .object (before ++ .mk key w :: after) ∧ ∀ m ∈ after, m.key ≠ key

/-- No member of the value has the key, as is true of everything that is no object. -/
def Lacks (key : String) (v : Value) : Prop :=
  ∀ ms, v = .object ms → ∀ m ∈ ms, m.key ≠ key

private theorem find?_insertMember (m : Member) (ms : List Member) (key : String) :
    (insertMember m ms).find? (·.key = key) =
      if m.key = key then some m else ms.find? (·.key = key) := by
  induction ms with
  | nil => by_cases h : m.key = key <;> simp [insertMember, h]
  | cons n ns ih =>
    rw [insertMember]
    split
    · by_cases h : m.key = key <;> simp [h]
    · split
      · rename_i hn
        by_cases h : m.key = key
        · simp [h]
        · simp [h, hn ▸ h]
      · rename_i hn
        rw [List.find?_cons, List.find?_cons, ih]
        by_cases h : n.key = key
        · have hm : m.key ≠ key := fun hm => hn (hm.trans h.symm)
          simp [h, hm]
        · simp [h]

/-- Of two members with one key the one put in last stays. -/
theorem insertMember_of_key_eq {m n : Member} (h : m.key = n.key) (ms : List Member) :
    insertMember m (insertMember n ms) = insertMember m ms := by
  induction ms with
  | nil => simp [insertMember, h]
  | cons k ms ih =>
    by_cases hlt : n.key < k.key
    · simp [insertMember, h, hlt]
    · by_cases heq : n.key = k.key
      · simp [insertMember, h, heq]
      · simp [insertMember, h, hlt, heq, ih]

private theorem insertMember_comm_of_lt {m n : Member} (h : m.key < n.key) (ms : List Member) :
    insertMember m (insertMember n ms) = insertMember n (insertMember m ms) := by
  have hn : ¬ n.key < m.key := String.lt_asymm h
  have hne : n.key ≠ m.key := fun he => String.lt_irrefl _ (he ▸ h)
  induction ms with
  | nil => simp [insertMember, h, hn, hne]
  | cons k ms ih =>
    by_cases hlt : n.key < k.key
    · have hm : m.key < k.key := String.lt_trans h hlt
      simp [insertMember, h, hn, hne, hlt, hm]
    · by_cases heq : n.key = k.key
      · rw [heq] at h hn hne
        simp [insertMember, h, hn, hne, heq]
      · by_cases hm : m.key < k.key
        · simp [insertMember, hn, hne, hlt, heq, hm]
        · by_cases hk : m.key = k.key
          · simp [insertMember, hlt, heq, hk]
          · simp [insertMember, hlt, heq, hm, hk, ih]

/-- Members with two keys can be put in the other way round. -/
theorem insertMember_comm {m n : Member} (h : m.key ≠ n.key) (ms : List Member) :
    insertMember m (insertMember n ms) = insertMember n (insertMember m ms) := by
  by_cases hlt : m.key < n.key
  · exact insertMember_comm_of_lt hlt ms
  · by_cases hgt : n.key < m.key
    · exact (insertMember_comm_of_lt hgt ms).symm
    · exact absurd (String.le_antisymm (String.not_lt.mp hgt) (String.not_lt.mp hlt)) h

/-- A member counts for nothing if one behind it has its key. -/
theorem canonicalMembers_insertMember {m : Member} {ms : List Member} (h : ∃ n ∈ ms, n.key = m.key)
    (acc : List Member) : canonicalMembers ms (insertMember m acc) = canonicalMembers ms acc := by
  induction ms generalizing acc with
  | nil => obtain ⟨_, hn, -⟩ := h; cases hn
  | cons n ms ih =>
    obtain ⟨k, v⟩ := n
    rw [canonicalMembers, canonicalMembers]
    by_cases hk : k = m.key
    · have hkey : (Member.mk k v.canonical).key = m.key := hk
      rw [insertMember_of_key_eq hkey]
    · obtain ⟨n, hn, hkey⟩ := h
      rcases List.mem_cons.mp hn with rfl | hn
      · exact absurd hkey hk
      · have hne : (Member.mk k v.canonical).key ≠ m.key := hk
        rw [insertMember_comm hne, ih ⟨n, hn, hkey⟩]

theorem find?_canonicalMembers (ms acc : List Member) (key : String) :
    (canonicalMembers ms acc).find? (·.key = key) =
      ((ms.reverse.find? (·.key = key)).map fun m => .mk m.key m.value.canonical).or
        (acc.find? (·.key = key)) := by
  induction ms generalizing acc with
  | nil => rfl
  | cons m ms ih =>
    obtain ⟨k, v⟩ := m
    rw [canonicalMembers, ih, find?_insertMember, List.reverse_cons, List.find?_append]
    cases ms.reverse.find? (·.key = key) with
    | some m => rfl
    | none => by_cases h : k = key <;> simp [Member.key, Member.value, h]

theorem member?_canonical (ms : List Member) (key : String) :
    (object ms).canonical.member? key =
      (ms.reverse.find? (·.key = key)).map fun m => m.value.canonical := by
  rw [canonical, member?, find?_canonicalMembers, List.find?_nil, Option.or_none, Option.map_map]
  rfl

/-- A member of an object with its keys in order is the last one with its key. -/
theorem member?_canonical_eq_some_iff :
    v.canonical.member? key = some w ↔ ∃ u, HasLast key v u ∧ w = u.canonical := by
  cases v with
  | scalar | array => simp [canonical, member?, HasLast]
  | object ms =>
    rw [member?_canonical, Option.map_eq_some_iff]
    constructor
    · rintro ⟨⟨k, u⟩, hf, rfl⟩
      obtain ⟨hk, after, before, hms, hafter⟩ := List.find?_eq_some_iff_append.mp hf
      obtain rfl : k = key := of_decide_eq_true hk
      refine ⟨u, ⟨before.reverse, after.reverse, ?_, ?_⟩, rfl⟩
      · rw [← List.reverse_reverse ms, hms, List.reverse_append, List.reverse_cons,
          List.append_assoc]
        rfl
      · intro m hm
        simpa using hafter m (List.mem_reverse.mp hm)
    · rintro ⟨u, ⟨before, after, hms, hafter⟩, rfl⟩
      cases hms
      refine ⟨.mk key u, List.find?_eq_some_iff_append.mpr ?_, rfl⟩
      refine ⟨decide_eq_true rfl, after.reverse, before.reverse, ?_, ?_⟩
      · rw [List.reverse_append, List.reverse_cons, List.append_assoc]
        rfl
      · intro m hm
        simpa using hafter m (List.mem_reverse.mp hm)

theorem member?_canonical_eq_none_iff : v.canonical.member? key = none ↔ v.Lacks key := by
  cases v with
  | scalar | array => simp [canonical, member?, Lacks]
  | object ms => simp [member?_canonical, Lacks]

end Value

end SideEffectLint.Json
