import SP42.Lib.Bytes

/-!
The bytes of a text in UTF-8, as numbers. A character of ASCII is its own byte; the bytes of any
other character are above ASCII, and the first of them is no continuation byte.
-/
namespace Utf8

open Bytes (size)

def encode (c : Char) : List Nat := (String.utf8EncodeChar c).map UInt8.toNat

def bytes (text : List Char) : List Nat := text.flatMap encode

theorem encode_length (c : Char) : (encode c).length = c.utf8Size := by
  rw [encode, List.length_map, String.length_utf8EncodeChar]

theorem encode_ascii {c : Char} (ascii : c.toNat < 128) : encode c = [c.toNat] := by
  have one : c.utf8Size = 1 := by
    rw [Char.utf8Size_eq_one_iff, UInt32.le_iff_toNat_le]
    exact Nat.le_of_lt_succ ascii
  rw [encode, String.utf8EncodeChar_eq_singleton one]
  have small : c.toNat % 256 = c.toNat := Nat.mod_eq_of_lt (Nat.lt_trans ascii (by decide))
  exact congrArg (· :: []) small

theorem le_toNat_or (a b : UInt8) : b.toNat ≤ (a ||| b).toNat := by
  rw [UInt8.toNat_or]
  exact Nat.right_le_or

/-- The bytes of a character outside ASCII. -/
theorem encode_wide {c : Char} (wide : 128 ≤ c.toNat) :
    ∃ lead more, encode c = lead :: more ∧ 192 ≤ lead ∧ ∀ b ∈ more, 128 ≤ b := by
  have follows (a : UInt8) : 128 ≤ (a ||| 0x80).toNat := le_toNat_or a 0x80
  have two (a : UInt8) : 192 ≤ (a ||| 0xc0).toNat := le_toNat_or a 0xc0
  have three (a : UInt8) : 192 ≤ (a ||| 0xe0).toNat :=
    Nat.le_trans (by decide) (le_toNat_or a 0xe0)
  have four (a : UInt8) : 192 ≤ (a ||| 0xf0).toNat :=
    Nat.le_trans (by decide) (le_toNat_or a 0xf0)
  have many : c.utf8Size ≠ 1 := by
    intro one
    rw [Char.utf8Size_eq_one_iff, UInt32.le_iff_toNat_le] at one
    exact absurd (Nat.lt_of_lt_of_le (by decide) wide) (Nat.not_lt.mpr one)
  unfold encode
  rcases c.utf8Size_eq with one | size | size | size
  · exact absurd one many
  · rw [String.utf8EncodeChar_eq_cons_cons size]
    refine ⟨_, _, rfl, two _, ?_⟩
    simp only [List.map_cons, List.map_nil, List.mem_singleton, forall_eq]
    exact follows _
  · rw [String.utf8EncodeChar_eq_cons_cons_cons size]
    refine ⟨_, _, rfl, three _, ?_⟩
    simp only [List.map_cons, List.map_nil, List.mem_cons, List.not_mem_nil, or_false,
      forall_eq_or_imp, forall_eq]
    exact ⟨follows _, follows _⟩
  · rw [String.utf8EncodeChar_eq_cons_cons_cons_cons size]
    refine ⟨_, _, rfl, four _, ?_⟩
    simp only [List.map_cons, List.map_nil, List.mem_cons, List.not_mem_nil, or_false,
      forall_eq_or_imp, forall_eq]
    exact ⟨follows _, follows _, follows _⟩

@[simp] theorem bytes_nil : bytes [] = [] := rfl

theorem bytes_cons (c : Char) (rest : List Char) : bytes (c :: rest) = encode c ++ bytes rest :=
  List.flatMap_cons

theorem bytes_append (before after : List Char) :
    bytes (before ++ after) = bytes before ++ bytes after := List.flatMap_append

@[simp] theorem bytes_length (text : List Char) : (bytes text).length = size text := by
  induction text with
  | nil => rfl
  | cons c rest ih =>
      rw [bytes_cons, List.length_append, encode_length, ih]
      rfl

/-- The bytes behind a boundary. -/
theorem getElem?_bytes (before after : List Char) (k : Nat) :
    (bytes (before ++ after))[size before + k]? = (bytes after)[k]? := by
  rw [bytes_append, List.getElem?_append_right (by rw [bytes_length]; omega), bytes_length,
    Nat.add_sub_cancel_left]

theorem lt_of_mem_encode {c : Char} {b : Nat} (mem : b ∈ encode c) : b < 256 := by
  obtain ⟨byte, -, rfl⟩ := List.mem_map.mp mem
  exact byte.toNat_lt

/-- The byte at a boundary is the character there, or above all continuation bytes. -/
theorem head_bytes (c : Char) (rest : List Char) :
    ∃ b, (bytes (c :: rest))[0]? = some b ∧ b < 256 ∧
      (c.toNat < 128 ∧ b = c.toNat ∨ 128 ≤ c.toNat ∧ 192 ≤ b) := by
  have small {b : Nat} {more : List Nat} (whole : encode c = b :: more) : b < 256 :=
    lt_of_mem_encode (whole ▸ List.mem_cons_self)
  rw [bytes_cons]
  rcases Nat.lt_or_ge c.toNat 128 with ascii | wide
  · have whole := encode_ascii ascii
    rw [whole]
    exact ⟨_, rfl, small whole, Or.inl ⟨ascii, rfl⟩⟩
  · obtain ⟨lead, more, whole, high, -⟩ := encode_wide wide
    rw [whole]
    exact ⟨_, rfl, small whole, Or.inr ⟨wide, high⟩⟩

/-- All the bytes of a character are itself, or above ASCII. -/
theorem mem_encode {c : Char} {b : Nat} (mem : b ∈ encode c) :
    c.toNat < 128 ∧ b = c.toNat ∨ 128 ≤ c.toNat ∧ 128 ≤ b := by
  rcases Nat.lt_or_ge c.toNat 128 with ascii | wide
  · rw [encode_ascii ascii] at mem
    exact Or.inl ⟨ascii, List.mem_singleton.mp mem⟩
  · obtain ⟨lead, more, whole, high, follow⟩ := encode_wide wide
    rw [whole] at mem
    refine Or.inr ⟨wide, ?_⟩
    rcases List.mem_cons.mp mem with rfl | later
    · omega
    · exact follow b later

/-- A byte inside the character at a boundary. -/
theorem inner_byte (before : List Char) (c : Char) (after : List Char) {k : Nat}
    (inside : k < c.utf8Size) :
    ∃ b, (bytes (before ++ c :: after))[size before + k]? = some b ∧ b ∈ encode c := by
  have here : k < (encode c).length := by rwa [encode_length]
  rw [getElem?_bytes, bytes_cons, List.getElem?_append_left here, List.getElem?_eq_getElem here]
  exact ⟨_, rfl, List.getElem_mem here⟩

/-- The byte before a boundary. -/
theorem last_byte (init : List Char) (c : Char) (after : List Char) :
    ∃ b, (bytes (init ++ c :: after))[size (init ++ [c]) - 1]? = some b ∧ b ∈ encode c := by
  have positive := c.utf8Size_pos
  obtain ⟨b, found, mem⟩ := @inner_byte init c after (c.utf8Size - 1) (by omega)
  have place : size (init ++ [c]) - 1 = size init + (c.utf8Size - 1) := by
    rw [Bytes.size_append, Bytes.size_cons, Bytes.size_nil]
    omega
  exact ⟨b, by rw [place]; exact found, mem⟩

end Utf8
