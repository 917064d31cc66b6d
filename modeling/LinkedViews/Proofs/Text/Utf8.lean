import Mathlib
import LinkedViews.Text.Utf8

/-!
Decoding undoes encoding, and the bytes of a character beyond ASCII all lie above the ASCII range,
so a byte that has a meaning of its own is never part of another character.
-/

namespace LinkedViews.Text.Utf8

variable {c : Char} {text rest : List Char} {offset : Nat}

@[simp] theorem encode_nil : encode [] = [] := rfl

@[simp] theorem encode_cons : encode (c :: rest) = String.utf8EncodeChar c ++ encode rest := by
  simp [encode]

@[simp] theorem encode_append : encode (text ++ rest) = encode text ++ encode rest := by
  simp [encode]

theorem toNat_ofNat_add (n mark : Nat) (range : n + mark < 0x100) :
    (UInt8.ofNat (n + mark)).toNat = n + mark :=
  UInt8.toNat_ofNat_of_lt' range

theorem continuation?_ofNat (n : Nat) :
    continuation? (UInt8.ofNat (n % 0x40 + 0x80)) = some (n % 0x40) := by
  have value := toNat_ofNat_add (n % 0x40) 0x80 (by omega)
  have range : (0x80 : UInt8) ≤ UInt8.ofNat (n % 0x40 + 0x80) ∧
      UInt8.ofNat (n % 0x40 + 0x80) < 0xC0 := by
    rw [UInt8.le_iff_toNat_le, UInt8.lt_iff_toNat_lt, value]
    exact ⟨Nat.le_add_left _ _, show n % 0x40 + 0x80 < 0xC0 by omega⟩
  simp only [continuation?, if_pos range, value, Nat.add_sub_cancel]

theorem character?_eq_some {least code : Nat} (shortest : least ≤ code) (same : code = c.toNat) :
    character? least code = some c := by
  have valid : code.isValidChar := same ▸ c.valid
  simp only [character?, if_pos (And.intro shortest valid)]
  rw [same, Char.ofNat_toNat]

theorem utf8EncodeChar_ascii (ascii : c.toNat < 0x80) :
    String.utf8EncodeChar c = [UInt8.ofNat c.toNat] := by
  have small : c.val.toNat ≤ 0x7f := Nat.le_of_lt_succ ascii
  simp only [String.utf8EncodeChar, if_pos small]
  rfl

theorem twoBytes?_ofNat {v : Nat} (least : 0x80 ≤ v) (most : v ≤ 0x7ff) (same : v = c.toNat) :
    twoBytes? (UInt8.ofNat (v / 64 % 0x20 + 0xc0)) (UInt8.ofNat (v % 0x40 + 0x80)) = some c := by
  have lead := toNat_ofNat_add (v / 64 % 0x20) 0xc0 (by omega)
  simp only [twoBytes?, continuation?_ofNat, lead]
  exact character?_eq_some (by omega) (by omega)

theorem threeBytes?_ofNat {v : Nat} (least : 0x800 ≤ v) (most : v ≤ 0xffff) (same : v = c.toNat) :
    threeBytes? (UInt8.ofNat (v / 4096 % 0x10 + 0xe0)) (UInt8.ofNat (v / 64 % 0x40 + 0x80))
      (UInt8.ofNat (v % 0x40 + 0x80)) = some c := by
  have lead := toNat_ofNat_add (v / 4096 % 0x10) 0xe0 (by omega)
  simp only [threeBytes?, continuation?_ofNat, lead]
  exact character?_eq_some (by omega) (by omega)

theorem fourBytes?_ofNat {v : Nat} (least : 0x10000 ≤ v) (most : v < 0x110000)
    (same : v = c.toNat) :
    fourBytes? (UInt8.ofNat (v / 262144 % 0x08 + 0xf0)) (UInt8.ofNat (v / 4096 % 0x40 + 0x80))
      (UInt8.ofNat (v / 64 % 0x40 + 0x80)) (UInt8.ofNat (v % 0x40 + 0x80)) = some c := by
  have lead := toNat_ofNat_add (v / 262144 % 0x08) 0xf0 (by omega)
  simp only [fourBytes?, continuation?_ofNat, lead]
  exact character?_eq_some (by omega) (by omega)

/-- Reading gives back the first character, whatever stands behind it. -/
theorem decodeFrom_utf8EncodeChar (c : Char) (offset : Nat) (bytes : List UInt8) :
    ∃ next, decodeFrom offset (String.utf8EncodeChar c ++ bytes) =
      (c :: ·) <$> decodeFrom next bytes := by
  have most : c.val.toNat < 0x110000 := by
    have valid : c.val.toNat.isValidChar := c.valid
    rcases valid with below | ⟨_, below⟩ <;> omega
  have byteLt (a b : UInt8) : (a < b) = (a.toNat < b.toNat) := propext UInt8.lt_iff_toNat_lt
  simp only [String.utf8EncodeChar]
  split
  · rename_i one
    refine ⟨offset + 1, ?_⟩
    have value := toNat_ofNat_add c.val.toNat 0 (by omega)
    simp only [Nat.add_zero] at value
    simp only [List.cons_append, List.nil_append]
    rw [decodeFrom.eq_def]
    simp only [byteLt, value, UInt8.reduceToNat]
    rw [if_pos (by omega)]
    exact congrArg (fun first => (first :: ·) <$> decodeFrom (offset + 1) bytes)
      (Char.ofNat_toNat c)
  · split
    · rename_i one two
      refine ⟨offset + 2, ?_⟩
      have lead := toNat_ofNat_add (c.val.toNat / 64 % 0x20) 0xc0 (by omega)
      simp only [List.cons_append, List.nil_append]
      rw [decodeFrom.eq_def]
      simp only [byteLt, lead, twoBytes?_ofNat (by omega) two rfl, UInt8.reduceToNat]
      rw [if_neg (by omega), if_pos (by omega)]
    · split
      · rename_i one two three
        refine ⟨offset + 3, ?_⟩
        have lead := toNat_ofNat_add (c.val.toNat / 4096 % 0x10) 0xe0 (by omega)
        simp only [List.cons_append, List.nil_append]
        rw [decodeFrom.eq_def]
        simp only [byteLt, lead, threeBytes?_ofNat (by omega) three rfl, UInt8.reduceToNat]
        rw [if_neg (by omega), if_neg (by omega), if_pos (by omega)]
      · rename_i one two three
        refine ⟨offset + 4, ?_⟩
        have lead := toNat_ofNat_add (c.val.toNat / 262144 % 0x08) 0xf0 (by omega)
        simp only [List.cons_append, List.nil_append]
        rw [decodeFrom.eq_def]
        simp only [byteLt, lead, fourBytes?_ofNat (by omega) most rfl, UInt8.reduceToNat]
        rw [if_neg (by omega), if_neg (by omega), if_neg (by omega)]

theorem decodeFrom_encode (text : List Char) (offset : Nat) :
    decodeFrom offset (encode text) = .ok text := by
  induction text generalizing offset with
  | nil => rfl
  | cons c rest ih =>
      obtain ⟨next, read⟩ := decodeFrom_utf8EncodeChar c offset (encode rest)
      rw [encode_cons, read, ih]
      rfl

theorem decode_encode (text : List Char) : decode (encode text) = .ok text :=
  decodeFrom_encode text 0

/-- Every byte of a character beyond ASCII lies above the ASCII range. -/
theorem utf8EncodeChar_beyond {byte : UInt8} (beyond : 0x80 ≤ c.toNat)
    (member : byte ∈ String.utf8EncodeChar c) : 0x80 ≤ byte.toNat := by
  have one : ¬ c.val.toNat ≤ 0x7f := fun small => Nat.not_lt.mpr beyond (Nat.lt_succ_of_le small)
  simp only [String.utf8EncodeChar, if_neg one] at member
  have marked {n mark : Nat} (range : n + mark < 0x100) (high : 0x80 ≤ mark)
      (same : byte = UInt8.ofNat (n + mark)) : 0x80 ≤ byte.toNat := by
    rw [same, toNat_ofNat_add _ _ range]
    omega
  split at member
  · simp only [List.mem_cons, List.not_mem_nil, or_false] at member
    rcases member with same | same <;> exact marked (by omega) (by omega) same
  · split at member <;> simp only [List.mem_cons, List.not_mem_nil, or_false] at member
    · rcases member with same | same | same <;> exact marked (by omega) (by omega) same
    · rcases member with same | same | same | same <;> exact marked (by omega) (by omega) same

/-- A byte of the ASCII range stands for its own character wherever it occurs. -/
theorem eq_of_mem_utf8EncodeChar (mark : Char) (ascii : mark.toNat < 0x80)
    (member : UInt8.ofNat mark.toNat ∈ String.utf8EncodeChar c) : c = mark := by
  have value : (UInt8.ofNat mark.toNat).toNat = mark.toNat :=
    toNat_ofNat_add _ 0 (Nat.lt_trans ascii (by decide))
  by_cases small : c.toNat < 0x80
  · rw [utf8EncodeChar_ascii small, List.mem_singleton] at member
    have own : (UInt8.ofNat c.toNat).toNat = c.toNat :=
      toNat_ofNat_add _ 0 (Nat.lt_trans small (by decide))
    have same := congrArg UInt8.toNat member
    rw [value, own] at same
    exact (Char.toNat_inj.mp same).symm
  · have beyond := utf8EncodeChar_beyond (Nat.le_of_not_lt small) member
    omega

end LinkedViews.Text.Utf8
