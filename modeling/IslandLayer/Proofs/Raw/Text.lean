import IslandLayer.Proofs.Raw.Basic
import IslandLayer.Script.Reading

set_option autoImplicit false

namespace IslandLayer.Raw

open Script

/-- The text in UTF-8. -/
def bytes (text : List Char) : List UInt8 := text.flatMap String.utf8EncodeChar

/-- Cuts a text after that many bytes. -/
def splitAt : Nat → List Char → Except Trap (List Char × List Char)
  | 0, text => .ok ([], text)
  | _ + 1, [] => .error .boundary
  | n + 1, c :: rest =>
    if c.utf8Size ≤ n + 1 then
      (splitAt (n + 1 - c.utf8Size) rest).map fun parts => (c :: parts.1, parts.2)
    else .error .boundary

/-- How many bytes of the class the text begins with. -/
def scan (accepts : UInt8 → Bool) (text : List Char) : Nat :=
  ((bytes text).takeWhile fun b => b < 128 && accepts b).length

/-- The longest non-empty run of a class of bytes, and the rest. -/
def run (accepts : UInt8 → Bool) (text : List Char) :
    Except Trap (Option (List Char × List Char)) :=
  if scan accepts text = 0 then .ok none else (splitAt (scan accepts text) text).map some

theorem bytes_cons (c : Char) (rest : List Char) :
    bytes (c :: rest) = String.utf8EncodeChar c ++ bytes rest := List.flatMap_cons

theorem length_bytes (text : List Char) :
    (bytes text).length = (String.ofList text).utf8ByteSize := by
  rw [← String.size_toByteArray, String.toByteArray_ofList, List.utf8Encode,
    List.size_toByteArray, bytes]

theorem splitAt_append (front back : List Char) :
    splitAt (bytes front).length (front ++ back) = .ok (front, back) := by
  induction front with
  | nil => rw [bytes, List.flatMap_nil, List.length_nil, List.nil_append, splitAt]
  | cons c rest ih =>
    have size : (bytes (c :: rest)).length = c.utf8Size + (bytes rest).length := by
      rw [bytes_cons, List.length_append, String.length_utf8EncodeChar]
    have positive := c.utf8Size_pos
    obtain ⟨n, more⟩ : ∃ n, (bytes (c :: rest)).length = n + 1 :=
      Nat.exists_eq_add_one.mpr (by omega)
    have fits : c.utf8Size ≤ n + 1 := by omega
    have left : n + 1 - c.utf8Size = (bytes rest).length := by omega
    rw [more, List.cons_append, splitAt, if_pos fits, left, ih]
    rfl

theorem append_of_splitAt {n : Nat} {text front back : List Char}
    (cut : splitAt n text = .ok (front, back)) :
    front ++ back = text ∧ (bytes front).length = n := by
  fun_induction splitAt n text generalizing front with
  | case1 text =>
    cases cut
    exact ⟨rfl, rfl⟩
  | case2 => cases cut
  | case3 n c rest fits ih =>
    cases later : splitAt (n + 1 - c.utf8Size) rest with
    | error trap =>
      rw [later] at cut
      cases cut
    | ok parts =>
      rw [later] at cut
      cases cut
      obtain ⟨whole, size⟩ := ih later
      refine ⟨congrArg (c :: ·) whole, ?_⟩
      rw [bytes_cons, List.length_append, String.length_utf8EncodeChar, size]
      omega
  | case4 => cases cut

/-- The positions at which a text can be cut are those between its characters. -/
theorem splitAt_eq_ok_iff (n : Nat) (text : List Char) :
    (∃ parts, splitAt n text = .ok parts) ↔ (String.Pos.Raw.mk n).IsValid (String.ofList text) := by
  rw [String.Pos.Raw.isValid_ofList]
  constructor
  · rintro ⟨⟨front, back⟩, cut⟩
    obtain ⟨rfl, size⟩ := append_of_splitAt cut
    exact ⟨front.length, by rw [List.take_left, ← length_bytes, size]⟩
  · rintro ⟨i, size⟩
    refine ⟨(text.take i, text.drop i), ?_⟩
    have cut := splitAt_append (text.take i) (text.drop i)
    rwa [List.take_append_drop, length_bytes, ← size] at cut

/-- Behind the digit, and not inside the letter after it. -/
example : splitAt 1 ['5', 'é'] = .ok (['5'], ['é']) ∧ splitAt 2 ['5', 'é'] = .error .boundary :=
  ⟨rfl, rfl⟩

/-- The class of characters that a class of bytes takes one byte at a time. -/
def ascii (accepts : UInt8 → Bool) (c : Char) : Bool :=
  decide (c.val ≤ 127) && accepts c.toUInt8

theorem toUInt8_lt_of_short {c : Char} (short : c.val ≤ 127) : c.toUInt8 < 128 := by
  have value := UInt32.le_iff_toNat_le.mp short
  have bound : (127 : UInt32).toNat = 127 := rfl
  have size : (128 : UInt8).toNat = 128 := rfl
  rw [UInt8.lt_iff_toNat_lt, ← Char.toUInt8_val, UInt32.toNat_toUInt8]
  omega

/-- A character of more than one byte begins with a byte that is not ASCII. -/
theorem utf8EncodeChar_of_long {c : Char} (long : ¬ c.val ≤ 127) :
    ∃ first rest, String.utf8EncodeChar c = first :: rest ∧ ¬ first < 128 := by
  have value : ¬ c.val.toNat ≤ 127 := fun small => long (UInt32.le_iff_toNat_le.mpr small)
  have late (n : Nat) (lead : 128 ≤ n) (byte : n < 256) : ¬ UInt8.ofNat n < 128 := by
    rw [UInt8.lt_iff_toNat_lt, UInt8.toNat_ofNat_of_lt' byte]
    exact Nat.not_lt.mpr lead
  simp only [String.utf8EncodeChar, value, if_false]
  split
  · exact ⟨_, _, rfl, late _ (by omega) (by omega)⟩
  · split
    · exact ⟨_, _, rfl, late _ (by omega) (by omega)⟩
    · exact ⟨_, _, rfl, late _ (by omega) (by omega)⟩

/-- A run of bytes is the bytes of a run of characters. -/
theorem takeWhile_bytes (accepts : UInt8 → Bool) (text : List Char) :
    ((bytes text).takeWhile fun b => b < 128 && accepts b) =
      bytes (text.takeWhile (ascii accepts)) := by
  induction text with
  | nil => rfl
  | cons c rest ih =>
    by_cases short : c.val ≤ 127
    · have single : String.utf8EncodeChar c = [c.toUInt8] :=
        String.utf8EncodeChar_eq_singleton (Char.utf8Size_eq_one_iff.mpr short)
      have small := toUInt8_lt_of_short short
      rw [bytes_cons, single, List.singleton_append]
      cases accepted : accepts c.toUInt8 with
      | true =>
        rw [List.takeWhile_cons_of_pos (by simp [small, accepted]),
          List.takeWhile_cons_of_pos (by simp [ascii, short, accepted]), bytes_cons, single, ih]
        rfl
      | false =>
        rw [List.takeWhile_cons_of_neg (by simp [accepted]),
          List.takeWhile_cons_of_neg (by simp [ascii, accepted])]
        rfl
    · obtain ⟨first, others, encoded, long⟩ := utf8EncodeChar_of_long short
      rw [bytes_cons, encoded, List.cons_append,
        List.takeWhile_cons_of_neg (by simp [long]),
        List.takeWhile_cons_of_neg (by simp [ascii, short])]
      rfl

theorem scan_eq (accepts : UInt8 → Bool) (text : List Char) :
    scan accepts text = (bytes (text.takeWhile (ascii accepts))).length := by
  rw [scan, takeWhile_bytes]

theorem splitAt_scan (accepts : UInt8 → Bool) (text : List Char) :
    splitAt (scan accepts text) text =
      .ok (text.takeWhile (ascii accepts), text.dropWhile (ascii accepts)) := by
  have cut := splitAt_append (text.takeWhile (ascii accepts)) (text.dropWhile (ascii accepts))
  rwa [List.takeWhile_append_dropWhile, ← scan_eq] at cut

/-- Where a run ends, the text can be cut. -/
theorem isValid_scan (accepts : UInt8 → Bool) (text : List Char) :
    (String.Pos.Raw.mk (scan accepts text)).IsValid (String.ofList text) :=
  (splitAt_eq_ok_iff _ _).mp ⟨_, splitAt_scan accepts text⟩

@[simp] theorem bytes_eq_nil_iff (text : List Char) : bytes text = [] ↔ text = [] := by
  cases text with
  | nil => simp [bytes]
  | cons c rest => simp [bytes_cons, String.utf8EncodeChar_ne_nil]

/-- A scan of bytes takes what a scan of characters takes. -/
@[simp] theorem run_eq (accepts : UInt8 → Bool) (text : List Char) :
    run accepts text = .ok (run? (ascii accepts) text) := by
  have nothing : scan accepts text = 0 ↔ text.takeWhile (ascii accepts) = [] := by
    simp [scan_eq]
  rw [run, run?, splitAt_scan]
  simp only [nothing]
  split <;> rfl

end IslandLayer.Raw
