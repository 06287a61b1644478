import Mathlib
import SideEffectLint.Text.SystemText

/-! What is shown for bytes. A text is shown as it is, and a character of one byte parts what is shown for the
bytes before it from what is shown for those behind it. -/

namespace SideEffectLint.SystemText

theorem bytes_inj {a b : SystemText} : a.bytes = b.bytes ↔ a = b := by
  cases a
  cases b
  simp

@[simp]
theorem bytes_append (a b : SystemText) : (a ++ b).bytes = a.bytes ++ b.bytes :=
  rfl

@[simp]
theorem bytes_empty : (ofString "").bytes = [] :=
  rfl

theorem append_assoc (a b c : SystemText) : a ++ b ++ c = a ++ (b ++ c) :=
  bytes_inj.mp (List.append_assoc a.bytes b.bytes c.bytes)

theorem append_empty (a : SystemText) : a ++ ofString "" = a :=
  bytes_inj.mp (List.append_nil a.bytes)

private theorem bytes_ofString (text : String) :
    (ofString text).bytes = text.toList.flatMap String.utf8EncodeChar := by
  rw [ofString, String.toUTF8_eq_toByteArray, ← String.utf8Encode_toList, List.utf8Encode,
    List.toList_data_toByteArray]

private theorem readNext_of_fits {begun : Begun} {b : UInt8} (h : begun.low ≤ b ∧ b ≤ begun.high) :
    readNext begun b =
      match begun.behind with
      | 0 => ([Char.ofNat (64 * begun.number + b.toNat % 64)], none)
      | behind + 1 =>
        ([], some ⟨64 * begun.number + b.toNat % 64, behind, 0x80, 0xbf, by decide⟩) :=
  if_pos h

/-- A character of one byte goes on with nothing that has been begun. -/
theorem read_of_lt {b : UInt8} (h : b < 0x80) (begun : Option Begun) :
    read begun b = ((if begun.isSome then [mark] else []) ++ [Char.ofNat b.toNat], none) := by
  cases begun with
  | none => exact if_pos h
  | some begun =>
    have hn : ¬ (begun.low ≤ b ∧ b ≤ begun.high) := fun hb =>
      UInt8.lt_irrefl b (UInt8.lt_of_lt_of_le h (UInt8.le_trans begun.le_low hb.1))
    have hf : readFirst b = ([Char.ofNat b.toNat], none) := if_pos h
    rw [read, readNext, if_neg hn, hf]
    rfl

private theorem chars_append_of_lt {b : UInt8} (h : b < 0x80) (begun : Option Begun) (as bs : List UInt8) :
    chars begun (as ++ b :: bs) = chars begun as ++ Char.ofNat b.toNat :: chars none bs := by
  induction as generalizing begun with
  | nil =>
    rw [List.nil_append, chars, read_of_lt h]
    cases begun <;> simp [chars]
  | cons a as ih => rw [List.cons_append, chars, chars, ih, List.append_assoc]

/-- The byte with six bits of a number, in front of so many others. -/
private def sixBits (behind v : Nat) : UInt8 :=
  UInt8.ofNat (v / 64 ^ behind % 64 + 128)

/-- The bytes of a character behind the first one. -/
private def trail : Nat → Nat → List UInt8
  | 0, _ => []
  | behind + 1, v => sixBits behind v :: trail behind v

/-- What has been begun of a number takes the next byte of it. -/
private structure Begun.Awaits (begun : Begun) (behind v : Nat) : Prop where
  behind_eq : begun.behind = behind
  number_eq : begun.number = v / 64 ^ (behind + 1)
  fits : begun.low ≤ sixBits behind v ∧ sixBits behind v ≤ begun.high

private theorem toNat_sixBits (behind v : Nat) :
    (sixBits behind v).toNat = v / 64 ^ behind % 64 + 128 := by
  rw [sixBits, UInt8.toNat_ofNat']
  omega

private theorem chars_trail {begun : Begun} {behind v : Nat} (h : begun.Awaits behind v)
    (bs : List UInt8) :
    chars (some begun) (trail (behind + 1) v ++ bs) = Char.ofNat v :: chars none bs := by
  induction behind generalizing begun with
  | zero =>
    have hv : 64 * (v / 64 ^ (0 + 1)) + (v / 64 ^ 0 % 64 + 128) % 64 = v := by
      rw [Nat.pow_zero, Nat.div_one, Nat.zero_add, Nat.pow_one]
      omega
    rw [trail, trail, List.cons_append, chars, read, readNext_of_fits h.fits, h.behind_eq,
      h.number_eq, toNat_sixBits, hv]
    rfl
  | succ behind ih =>
    have hv : 64 * (v / 64 ^ (behind + 2)) + (v / 64 ^ (behind + 1) % 64 + 128) % 64 =
        v / 64 ^ (behind + 1) := by
      rw [Nat.pow_succ _ (behind + 1), ← Nat.div_div_eq_div_mul]
      omega
    rw [trail, List.cons_append, chars, read, readNext_of_fits h.fits, h.behind_eq, h.number_eq,
      toNat_sixBits, hv]
    refine ih ⟨rfl, rfl, ?_⟩
    simp only [UInt8.le_iff_toNat_le, toNat_sixBits, UInt8.reduceToNat]
    omega

private theorem exists_awaits_one {v : Nat} (h : 0x7f < v) (h' : v ≤ 0x7ff) :
    ∃ begun, begin? (.ofNat (v / 64 % 32 + 192)) = some begun ∧ begun.Awaits 0 v := by
  have hp : v / 64 ^ 1 = v / 64 := rfl
  have hb : (UInt8.ofNat (v / 64 % 32 + 192)).toNat = v / 64 + 192 := by
    rw [UInt8.toNat_ofNat']
    omega
  simp only [begin?, UInt8.lt_iff_toNat_lt, hb, UInt8.reduceToNat]
  rw [if_neg (by omega), if_pos (by omega)]
  refine ⟨_, rfl, rfl, ?_, ?_⟩
  · simp only [Nat.zero_add, hp]
    omega
  · simp only [UInt8.le_iff_toNat_le, toNat_sixBits, UInt8.reduceToNat]
    omega

private theorem exists_awaits_two {v : Nat} (h : 0x7ff < v) (h' : v ≤ 0xffff)
    (hv : v < 0xd800 ∨ 0xdfff < v) :
    ∃ begun, begin? (.ofNat (v / 4096 % 16 + 224)) = some begun ∧ begun.Awaits 1 v := by
  have hp : v / 64 ^ 1 = v / 64 := rfl
  have hp' : v / 64 ^ 2 = v / 4096 := rfl
  have hb : (UInt8.ofNat (v / 4096 % 16 + 224)).toNat = v / 4096 + 224 := by
    rw [UInt8.toNat_ofNat']
    omega
  simp only [begin?, UInt8.lt_iff_toNat_lt, ← UInt8.toNat_inj, hb, UInt8.reduceToNat]
  rw [if_neg (by omega), if_neg (by omega)]
  -- Behind the first byte of them, and where surrogates would be, not every byte may come.
  repeat' split
  all_goals first
    | omega
    | refine ⟨_, rfl, rfl, ?_, ?_⟩
      · simp only [Nat.reduceAdd, hp']
        omega
      · simp only [UInt8.le_iff_toNat_le, toNat_sixBits, hp, UInt8.reduceToNat]
        omega

private theorem exists_awaits_three {v : Nat} (h : 0xffff < v) (h' : v < 0x110000) :
    ∃ begun, begin? (.ofNat (v / 262144 % 8 + 240)) = some begun ∧ begun.Awaits 2 v := by
  have hp : v / 64 ^ 2 = v / 4096 := rfl
  have hp' : v / 64 ^ 3 = v / 262144 := rfl
  have hb : (UInt8.ofNat (v / 262144 % 8 + 240)).toNat = v / 262144 + 240 := by
    rw [UInt8.toNat_ofNat']
    omega
  simp only [begin?, UInt8.lt_iff_toNat_lt, ← UInt8.toNat_inj, hb, UInt8.reduceToNat]
  rw [if_neg (by omega), if_neg (by omega), if_neg (by omega), if_neg (by omega), if_neg (by omega)]
  repeat' split
  all_goals first
    | omega
    | refine ⟨_, rfl, rfl, ?_, ?_⟩
      · simp only [Nat.reduceAdd, hp']
        omega
      · simp only [UInt8.le_iff_toNat_le, toNat_sixBits, hp, UInt8.reduceToNat]
        omega

private theorem chars_of_begin? {b : UInt8} {begun : Begun} (h : begin? b = some begun)
    (bs : List UInt8) : chars none (b :: bs) = chars (some begun) bs := by
  have hb : ¬ b < 0x80 := by
    intro hb
    have hlow : b < 0xc2 := UInt8.lt_trans hb (by decide)
    rw [begin?, if_pos hlow] at h
    cases h
  rw [chars, read, readFirst, if_neg hb, h]
  rfl

private theorem utf8EncodeChar_eq (c : Char) :
    let v := c.toNat
    String.utf8EncodeChar c =
      if v ≤ 0x7f then [.ofNat v]
      else if v ≤ 0x7ff then .ofNat (v / 64 % 32 + 192) :: trail 1 v
      else if v ≤ 0xffff then .ofNat (v / 4096 % 16 + 224) :: trail 2 v
      else .ofNat (v / 262144 % 8 + 240) :: trail 3 v := by
  have hval : c.val.toNat = c.toNat := rfl
  simp [String.utf8EncodeChar, trail, sixBits, hval]

private theorem chars_utf8EncodeChar (c : Char) (bs : List UInt8) :
    chars none (String.utf8EncodeChar c ++ bs) = c :: chars none bs := by
  have hv : c.toNat < 0xd800 ∨ 0xdfff < c.toNat ∧ c.toNat < 0x110000 := c.valid
  have hlong {b : UInt8} {behind : Nat}
      (h : ∃ begun, begin? b = some begun ∧ begun.Awaits behind c.toNat) :
      chars none ((b :: trail (behind + 1) c.toNat) ++ bs) = c :: chars none bs := by
    obtain ⟨begun, hb, ha⟩ := h
    rw [List.cons_append, chars_of_begin? hb, chars_trail ha, Char.ofNat_toNat]
  rw [utf8EncodeChar_eq]
  split
  · have hb : (UInt8.ofNat c.toNat).toNat = c.toNat := by
      rw [UInt8.toNat_ofNat']
      omega
    have hlt : UInt8.ofNat c.toNat < 0x80 := by
      simp only [UInt8.lt_iff_toNat_lt, hb, UInt8.reduceToNat]
      omega
    rw [List.singleton_append, chars, read, readFirst, if_pos hlt, hb, Char.ofNat_toNat]
    rfl
  · split
    · exact hlong (exists_awaits_one (by omega) ‹_›)
    · split
      · exact hlong (exists_awaits_two (by omega) ‹_› (by omega))
      · exact hlong (exists_awaits_three (by omega) (by omega))

/-- A text is shown as it is. -/
@[simp]
theorem shown_ofString (text : String) : (ofString text).shown = text := by
  have h (cs : List Char) : chars none (cs.flatMap String.utf8EncodeChar) = cs := by
    induction cs with
    | nil => rfl
    | cons c cs ih => rw [List.flatMap_cons, chars_utf8EncodeChar, ih]
  rw [shown, bytes_ofString, h, String.ofList_toList]

theorem text?_eq_some_iff {a : SystemText} {text : String} :
    a.text? = some text ↔ a = ofString text := by
  rw [text?]
  constructor
  · intro h
    split at h
    · rename_i ha
      rw [← ha, Option.some.inj h]
    · cases h
  · rintro rfl
    rw [shown_ofString, if_pos rfl]

theorem ofString_inj {s t : String} : ofString s = ofString t ↔ s = t := by
  constructor
  · intro h
    rw [← shown_ofString s, h, shown_ofString]
  · rintro rfl
    rfl

/-- A slash parts what is shown. -/
theorem shown_append_slash (a b : SystemText) :
    (a ++ ofString "/" ++ b).shown = a.shown ++ "/" ++ b.shown := by
  have hbytes : (a ++ ofString "/" ++ b).bytes = a.bytes ++ '/'.toUInt8 :: b.bytes := by
    rw [append_assoc]
    rfl
  rw [← String.toList_inj, shown, hbytes, chars_append_of_lt (by decide)]
  simp [shown]
  rfl

end SideEffectLint.SystemText
