import DocGraph.Text.Bytes
import Mathlib.Data.String.Basic
import Mathlib.Tactic.SplitIfs

namespace DocGraph.Text

/-- The bytes behind the first one of a character: so many digits of its number to base 64. -/
def tail (digits number : Nat) : List UInt8 :=
  match digits with
  | 0 => []
  | rest + 1 => UInt8.ofNat (number / 64 ^ rest % 64 + 128) :: tail rest number

theorem cons_ofNat_lt {left right : Nat} {front back : List UInt8} (fits : right < 256)
    (order : left < right ∨ left = right ∧ front < back) :
    UInt8.ofNat left :: front < UInt8.ofNat right :: back := by
  rcases order with less | ⟨rfl, less⟩
  · refine List.cons_lt_cons_iff.mpr (.inl ?_)
    rw [UInt8.lt_iff_toNat_lt, UInt8.toNat_ofNat_of_lt' (less.trans fits),
      UInt8.toNat_ofNat_of_lt' fits]
    exact less
  · exact List.cons_lt_cons_iff.mpr (.inr ⟨rfl, less⟩)

/-- The first digit in which numbers differ decides. -/
theorem tail_lt {digits left right : Nat} (less : left < right)
    (same : left / 64 ^ digits = right / 64 ^ digits) (front back : List UInt8) :
    tail digits left ++ front < tail digits right ++ back := by
  induction digits with
  | zero =>
      simp only [Nat.pow_zero, Nat.div_one] at same
      exact absurd same less.ne
  | succ digits ih =>
      have shifted : left / 64 ^ digits / 64 = right / 64 ^ digits / 64 := by
        simpa only [Nat.pow_succ, Nat.div_div_eq_div_mul] using same
      have ordered := Nat.div_le_div_right (c := 64 ^ digits) less.le
      apply cons_ofNat_lt
      · omega
      · rcases Nat.lt_or_eq_of_le ordered with here | later
        · exact .inl (by omega)
        · exact .inr ⟨by rw [later], ih later⟩

def width (number : Nat) : Nat :=
  if number ≤ 127 then 0 else if number ≤ 2047 then 1 else if number ≤ 65535 then 2 else 3

/-- What the first byte of a character shows of the number of its digits. -/
def mark : Nat → Nat
  | 0 => 0
  | 1 => 192
  | 2 => 224
  | _ => 240

def head (number : Nat) : Nat := number / 64 ^ width number + mark (width number)

theorem number_lt (char : Char) : char.val.toNat < 1114112 := by
  rcases char.valid with low | high
  · exact low.trans (by decide)
  · exact high.2

theorem utf8EncodeChar_eq (char : Char) : String.utf8EncodeChar char =
    UInt8.ofNat (head char.val.toNat) :: tail (width char.val.toNat) char.val.toNat := by
  have bound := number_lt char
  unfold String.utf8EncodeChar head width
  simp only
  generalize char.val.toNat = number at bound
  split_ifs
  · simp [tail, mark]
  · have all : number / 64 % 32 = number / 64 := by omega
    simp [tail, mark, all]
  · have all : number / 4096 % 16 = number / 4096 := by omega
    simp [tail, mark, all]
  · have all : number / 262144 % 8 = number / 262144 := by omega
    simp [tail, mark, all]

theorem head_lt {number : Nat} (bound : number < 1114112) : head number < 256 := by
  unfold head width
  split_ifs <;> simp only [mark] <;> omega

/-- The marks of more digits are beyond all first bytes of fewer digits. -/
theorem head_lt_or_width_eq {left right : Nat} (less : left < right) :
    head left < head right ∨ width left = width right := by
  unfold head width
  split_ifs <;> simp only [mark, or_true] <;> omega

theorem utf8EncodeChar_lt {left right : Char} (less : left < right) (front back : List UInt8) :
    String.utf8EncodeChar left ++ front < String.utf8EncodeChar right ++ back := by
  have below : left.val.toNat < right.val.toNat := less
  rw [utf8EncodeChar_eq, utf8EncodeChar_eq]
  apply cons_ofNat_lt (head_lt (number_lt right))
  rcases head_lt_or_width_eq below with lesser | same
  · exact .inl lesser
  · have ordered := Nat.div_le_div_right (c := 64 ^ width right.val.toNat) below.le
    unfold head
    rw [same]
    rcases Nat.lt_or_eq_of_le ordered with here | later
    · exact .inl (by omega)
    · exact .inr ⟨by rw [later], tail_lt below later front back⟩

theorem bytes_eq (text : String) : bytes text = text.toList.flatMap String.utf8EncodeChar := by
  rw [bytes, String.toUTF8, ← String.utf8Encode_toList, List.utf8Encode, List.data_toByteArray]

theorem flatMap_utf8EncodeChar_lt {left right : List Char} (less : left < right) :
    left.flatMap String.utf8EncodeChar < right.flatMap String.utf8EncodeChar := by
  induction less with
  | nil =>
      rw [List.flatMap_nil, List.flatMap_cons, utf8EncodeChar_eq]
      exact List.nil_lt_cons _ _
  | cons _ ih =>
      rw [List.flatMap_cons, List.flatMap_cons]
      exact List.append_left_lt ih
  | rel here =>
      rw [List.flatMap_cons, List.flatMap_cons]
      exact utf8EncodeChar_lt here _ _

theorem bytes_lt {left right : String} (less : left < right) : bytes left < bytes right := by
  rw [bytes_eq, bytes_eq]
  exact flatMap_utf8EncodeChar_lt (String.lt_iff.mp less)

theorem bytes_lt_iff {left right : String} : bytes left < bytes right ↔ left < right := by
  constructor
  · intro less
    rcases lt_trichotomy left right with ordered | rfl | reversed
    · exact ordered
    · exact absurd less (List.lt_irrefl _)
    · exact absurd (bytes_lt reversed) (List.lt_asymm less)
  · exact bytes_lt

theorem bytes_injective {left right : String} (same : bytes left = bytes right) : left = right := by
  rcases lt_trichotomy left right with less | equal | greater
  · exact absurd (same ▸ bytes_lt less) (List.lt_irrefl _)
  · exact equal
  · exact absurd (same ▸ bytes_lt greater) (List.lt_irrefl _)

theorem compareBytes_eq (left right : String) :
    compareBytes left right = compareOfLessAndEq left right := by
  have equal : bytes left = bytes right ↔ left = right :=
    ⟨bytes_injective, fun same => congrArg bytes same⟩
  simp only [compareBytes, compareOfLessAndEq, bytes_lt_iff, equal]

end DocGraph.Text
