import Mathlib
import SP42.Base.FormEncoding
import SP42.Lib.Url

/-!
How `application/x-www-form-urlencoded` text is written: every value that is written is read
back, and what follows an escape is read on its own.
-/
namespace SP42.FormEncoding

open Whatwg (percentByte upperHex)

/-- What `byte_serialize` leaves as it is. -/
def isSerializedPlain (c : Char) : Bool := c.isAlphanum || ['*', '-', '.', '_'].contains c

/-- `form_urlencoded::byte_serialize` over the bytes of a text. -/
def byteSerialize (value : Text) : Text :=
  value.flatMap fun c =>
    if isSerializedPlain c then [c]
    else if c = ' ' then ['+']
    else (String.utf8EncodeChar c).flatMap percentByte

section Octets

theorem upperHex_value : ∀ n < 16, hexValue (upperHex n) = some n := by decide

/-- An escaped byte is read as its octet. -/
theorem percentDecode_percentByte (byte : UInt8) (rest : Text) :
    percentDecode (percentByte byte ++ rest) = .octet byte.toNat :: percentDecode rest := by
  have bound := byte.toNat_lt
  have high := upperHex_value (byte.toNat / 16) (by omega)
  have low := upperHex_value (byte.toNat % 16) (by omega)
  have whole : byte.toNat / 16 * 16 + byte.toNat % 16 = byte.toNat := by omega
  simp only [percentByte, List.cons_append, List.nil_append, percentDecode, escaped, high, low, whole]

theorem percentDecode_bytes (bytes : List UInt8) (rest : Text) :
    percentDecode (bytes.flatMap percentByte ++ rest) =
      bytes.map (fun byte => .octet byte.toNat) ++ percentDecode rest := by
  induction bytes with
  | nil => rfl
  | cons byte bytes ih =>
      rw [List.flatMap_cons, List.append_assoc, percentDecode_percentByte, ih]
      rfl

theorem lossy_lead {octet : Nat} {pending : Pending} (begins : lead octet = .sequence pending)
    (rest : List Piece) : utf8Lossy none (.octet octet :: rest) = utf8Lossy (some pending) rest := by
  simp only [utf8Lossy, begins]

theorem lossy_next {need low high bits octet : Nat} (inside : low ≤ octet ∧ octet ≤ high)
    (rest : List Piece) :
    utf8Lossy (some ⟨need + 2, low, high, bits⟩) (.octet octet :: rest) =
      utf8Lossy (some ⟨need + 1, 0x80, 0xbf, bits * 64 + (octet - 0x80)⟩) rest := by
  have more : ¬ need + 2 ≤ 1 := by omega
  simp only [utf8Lossy, inside, and_self, if_true, more, if_false]
  rfl

theorem lossy_last {low high bits octet : Nat} (inside : low ≤ octet ∧ octet ≤ high)
    (rest : List Piece) :
    utf8Lossy (some ⟨1, low, high, bits⟩) (.octet octet :: rest) =
      Char.ofNat (bits * 64 + (octet - 0x80)) :: utf8Lossy none rest := by
  simp only [utf8Lossy, inside, and_self, if_true, Nat.le_refl]

theorem lead_two {octet : Nat} (low : 0xc2 ≤ octet) (high : octet ≤ 0xdf) :
    lead octet = .sequence ⟨1, 0x80, 0xbf, octet - 0xc0⟩ := by
  simp (disch := omega) only [lead, if_pos, if_neg]

theorem lead_three {octet next : Nat} (low : 0xe0 ≤ octet) (high : octet ≤ 0xef)
    (inside : 0x80 ≤ next ∧ next ≤ 0xbf) (long : octet = 0xe0 → 0xa0 ≤ next)
    (scalar : octet = 0xed → next ≤ 0x9f) : ∃ least most,
      lead octet = .sequence ⟨2, least, most, octet - 0xe0⟩ ∧ least ≤ next ∧ next ≤ most := by
  by_cases first : octet = 0xe0
  · subst first
    exact ⟨0xa0, 0xbf, rfl, long rfl, inside.2⟩
  · by_cases surrogate : octet = 0xed
    · subst surrogate
      exact ⟨0x80, 0x9f, rfl, inside.1, scalar rfl⟩
    · refine ⟨0x80, 0xbf, ?_, inside⟩
      simp (disch := omega) only [lead, if_pos, if_neg]

theorem lead_four {octet next : Nat} (low : 0xf0 ≤ octet) (high : octet ≤ 0xf4)
    (inside : 0x80 ≤ next ∧ next ≤ 0xbf) (long : octet = 0xf0 → 0x90 ≤ next)
    (scalar : octet = 0xf4 → next ≤ 0x8f) : ∃ least most,
      lead octet = .sequence ⟨3, least, most, octet - 0xf0⟩ ∧ least ≤ next ∧ next ≤ most := by
  by_cases first : octet = 0xf0
  · subst first
    exact ⟨0x90, 0xbf, rfl, long rfl, inside.2⟩
  · by_cases last : octet = 0xf4
    · subst last
      exact ⟨0x80, 0x8f, rfl, inside.1, scalar rfl⟩
    · refine ⟨0x80, 0xbf, ?_, inside⟩
      simp (disch := omega) only [lead, if_pos, if_neg]

theorem scalar_range (c : Char) :
    c.toNat < 0xd800 ∨ (0xdfff < c.toNat ∧ c.toNat < 0x110000) := c.valid

/-- The octets of a character are read as the character. -/
theorem utf8Lossy_encoded (c : Char) (rest : List Piece) :
    utf8Lossy none ((String.utf8EncodeChar c).map (fun byte => .octet byte.toNat) ++ rest) =
      c :: utf8Lossy none rest := by
  have range := scalar_range c
  have itself : Char.ofNat c.toNat = c := Char.ofNat_toNat c
  have value : c.val.toNat = c.toNat := rfl
  unfold String.utf8EncodeChar
  simp only [value]
  by_cases one : c.toNat ≤ 0x7f
  · have small : c.toNat % 256 = c.toNat := by omega
    have single : lead c.toNat = .single c := by
      simp (disch := omega) only [lead, if_pos, itself]
    simp only [one, if_true, List.map_cons, List.map_nil, List.cons_append, List.nil_append,
      UInt8.toNat_ofNat', small, utf8Lossy, single]
  by_cases two : c.toNat ≤ 0x7ff
  · have first : (c.toNat / 64 % 32 + 0xc0) % 256 = c.toNat / 64 + 0xc0 := by omega
    have second : (c.toNat % 64 + 0x80) % 256 = c.toNat % 64 + 0x80 := by omega
    have begins := @lead_two (c.toNat / 64 + 0xc0) (by omega) (by omega)
    have ends : 0x80 ≤ c.toNat % 64 + 0x80 ∧ c.toNat % 64 + 0x80 ≤ 0xbf := by omega
    have bits : (c.toNat / 64 + 0xc0 - 0xc0) * 64 + (c.toNat % 64 + 0x80 - 0x80) = c.toNat := by omega
    simp only [one, two, if_true, if_false, List.map_cons, List.map_nil, List.cons_append,
      List.nil_append, UInt8.toNat_ofNat', first, second]
    rw [lossy_lead begins, lossy_last ends, bits, itself]
  by_cases three : c.toNat ≤ 0xffff
  · have first : (c.toNat / 4096 % 16 + 0xe0) % 256 = c.toNat / 4096 + 0xe0 := by omega
    have second : (c.toNat / 64 % 64 + 0x80) % 256 = c.toNat / 64 % 64 + 0x80 := by omega
    have third : (c.toNat % 64 + 0x80) % 256 = c.toNat % 64 + 0x80 := by omega
    obtain ⟨least, most, begins, goes⟩ :=
      @lead_three (c.toNat / 4096 + 0xe0) (c.toNat / 64 % 64 + 0x80) (by omega) (by omega) (by omega)
        (by omega) (by omega)
    have ends : 0x80 ≤ c.toNat % 64 + 0x80 ∧ c.toNat % 64 + 0x80 ≤ 0xbf := by omega
    have bits : ((c.toNat / 4096 + 0xe0 - 0xe0) * 64 + (c.toNat / 64 % 64 + 0x80 - 0x80)) * 64 +
      (c.toNat % 64 + 0x80 - 0x80) = c.toNat := by omega
    simp only [one, two, three, if_true, if_false, List.map_cons, List.map_nil, List.cons_append,
      List.nil_append, UInt8.toNat_ofNat', first, second, third]
    rw [lossy_lead begins, lossy_next goes, lossy_last ends, bits, itself]
  · have first : (c.toNat / 262144 % 8 + 0xf0) % 256 = c.toNat / 262144 + 0xf0 := by omega
    have second : (c.toNat / 4096 % 64 + 0x80) % 256 = c.toNat / 4096 % 64 + 0x80 := by omega
    have third : (c.toNat / 64 % 64 + 0x80) % 256 = c.toNat / 64 % 64 + 0x80 := by omega
    have fourth : (c.toNat % 64 + 0x80) % 256 = c.toNat % 64 + 0x80 := by omega
    obtain ⟨least, most, begins, goes⟩ :=
      @lead_four (c.toNat / 262144 + 0xf0) (c.toNat / 4096 % 64 + 0x80) (by omega) (by omega)
        (by omega) (by omega) (by omega)
    have middle : 0x80 ≤ c.toNat / 64 % 64 + 0x80 ∧ c.toNat / 64 % 64 + 0x80 ≤ 0xbf := by omega
    have ends : 0x80 ≤ c.toNat % 64 + 0x80 ∧ c.toNat % 64 + 0x80 ≤ 0xbf := by omega
    have bits : (((c.toNat / 262144 + 0xf0 - 0xf0) * 64 + (c.toNat / 4096 % 64 + 0x80 - 0x80)) * 64 +
      (c.toNat / 64 % 64 + 0x80 - 0x80)) * 64 + (c.toNat % 64 + 0x80 - 0x80) = c.toNat := by omega
    simp only [one, two, three, if_false, List.map_cons, List.map_nil, List.cons_append,
      List.nil_append, UInt8.toNat_ofNat', first, second, third, fourth]
    rw [lossy_lead begins, lossy_next goes, lossy_next middle, lossy_last ends, bits, itself]

end Octets

section Reading

theorem percentDecode_cons {c : Char} (unescaped : c ≠ '%') (rest : Text) :
    percentDecode (c :: rest) = .plain (if c = '+' then ' ' else c) :: percentDecode rest := by
  rw [percentDecode]
  exact fun a b more escape => absurd escape unescaped

theorem plain_serialized {c : Char} (plain : isSerializedPlain c = true) : c ≠ '%' ∧ c ≠ '+' := by
  constructor <;> rintro rfl <;> exact absurd plain (by decide)

/-- What is written is read back, whatever follows. -/
theorem lossy_serialize (value rest : Text) :
    utf8Lossy none (percentDecode (byteSerialize value ++ rest)) =
      value ++ utf8Lossy none (percentDecode rest) := by
  induction value with
  | nil => rfl
  | cons c value ih =>
      have unfolded : byteSerialize (c :: value) ++ rest =
          (if isSerializedPlain c then [c] else if c = ' ' then ['+']
            else (String.utf8EncodeChar c).flatMap percentByte) ++ (byteSerialize value ++ rest) :=
        List.append_assoc _ _ _
      rw [unfolded]
      by_cases plain : isSerializedPlain c = true
      · obtain ⟨unescaped, noPlus⟩ := plain_serialized plain
        rw [if_pos plain, List.singleton_append, percentDecode_cons unescaped, if_neg noPlus]
        exact congrArg (c :: ·) ih
      · rw [if_neg plain]
        by_cases blank : c = ' '
        · subst blank
          rw [if_pos rfl, List.singleton_append, percentDecode_cons (by decide), if_pos rfl]
          exact congrArg (' ' :: ·) ih
        · rw [if_neg blank, percentDecode_bytes, utf8Lossy_encoded, ih]
          rfl

theorem decodeComponent_byteSerialize (value : Text) :
    decodeComponent (byteSerialize value) = value := by
  have read := lossy_serialize value []
  rw [List.append_nil] at read
  exact read.trans (List.append_nil value)

/-- A percent sign starts anew: no digit of an earlier escape is one. -/
theorem percentDecode_append_escape (text rest : Text) :
    percentDecode (text ++ '%' :: rest) = percentDecode text ++ percentDecode ('%' :: rest) := by
  fun_induction percentDecode text with
  | case1 => rfl
  | case2 a b more value hex ih =>
      simp only [List.cons_append, percentDecode, hex, ih]
  | case3 a b more hex ih =>
      have ih : percentDecode (a :: b :: (more ++ '%' :: rest)) =
        percentDecode (a :: b :: more) ++ percentDecode ('%' :: rest) := ih
      rw [List.cons_append, List.cons_append, List.cons_append, percentDecode.eq_2, hex, ih]
      rfl
  | case4 c more other ih =>
      by_cases escape : c = '%'
      · subst escape
        match more with
        | [] =>
            cases rest with
            | nil => rfl
            | cons d rest =>
                have none : escaped '%' d = none := rfl
                rw [List.cons_append, List.nil_append, percentDecode.eq_2, none]
                rfl
        | [a] =>
            have none : escaped a '%' = none := by
              unfold escaped
              cases hexValue a <;> rfl
            have ih : percentDecode (a :: '%' :: rest) =
              percentDecode [a] ++ percentDecode ('%' :: rest) := ih
            rw [List.cons_append, List.singleton_append, percentDecode.eq_2, none, ih]
            rfl
        | a :: b :: more => exact absurd rfl (other a b more rfl)
      · rw [List.cons_append, percentDecode_cons escape, ih]
        rfl

theorem lead_low {octet : Nat} {pending : Pending} (begins : lead octet = .sequence pending) :
    0x80 ≤ pending.low := by
  unfold lead at begins
  split_ifs at begins <;> cases begins <;> simp

theorem lead_ascii {octet : Nat} (ascii : octet < 0x80) : lead octet = .single (Char.ofNat octet) := by
  simp only [lead, ascii, if_true]

/-- An ASCII octet is a character of its own, wherever it stands. -/
theorem utf8Lossy_append_ascii {octet : Nat} (ascii : octet < 0x80) (rest pieces : List Piece)
    (pending : Option Pending) (beyond : ∀ q ∈ pending, 0x80 ≤ q.low) :
    utf8Lossy pending (pieces ++ .octet octet :: rest) =
      utf8Lossy pending pieces ++ Char.ofNat octet :: utf8Lossy none rest := by
  have nothing : ∀ q ∈ (none : Option Pending), 0x80 ≤ q.low := fun q held => nomatch held
  induction pieces generalizing pending with
  | nil =>
      cases pending with
      | none => simp only [List.nil_append, utf8Lossy, lead_ascii ascii]
      | some q =>
          have low := beyond q rfl
          have outside : ¬ (q.low ≤ octet ∧ octet ≤ q.high) := by omega
          simp only [List.nil_append, utf8Lossy, outside, if_false, lead_ascii ascii]
          rfl
  | cons piece pieces ih =>
      cases piece with
      | plain c =>
          cases pending <;> simp only [List.cons_append, utf8Lossy, ih none nothing]
      | octet value =>
          have began {q : Pending} (begins : lead value = .sequence q) :=
            ih (some q) fun _ same => Option.some.inj same ▸ lead_low begins
          cases pending with
          | none =>
              cases begins : lead value with
              | single c => simp only [List.cons_append, utf8Lossy, begins, ih none nothing]
              | sequence q => simp only [List.cons_append, utf8Lossy, begins, began begins]
              | invalid => simp only [List.cons_append, utf8Lossy, begins, ih none nothing]
          | some q =>
              by_cases inside : q.low ≤ value ∧ value ≤ q.high
              · by_cases last : q.need ≤ 1
                · simp only [List.cons_append, utf8Lossy, inside, and_self, if_true, last,
                    ih none nothing]
                · have next := ih (some ⟨q.need - 1, 0x80, 0xbf, q.bits * 64 + (value - 0x80)⟩)
                    fun _ same => Option.some.inj same ▸ Nat.le_refl _
                  simp only [List.cons_append, utf8Lossy, inside, and_self, if_true, last, if_false,
                    next]
              · cases begins : lead value with
                | single c =>
                    simp only [List.cons_append, utf8Lossy, inside, if_false, begins, ih none nothing]
                | sequence next =>
                    simp only [List.cons_append, utf8Lossy, inside, if_false, begins, began begins]
                | invalid =>
                    simp only [List.cons_append, utf8Lossy, inside, if_false, begins, ih none nothing]

theorem decodeComponent_append_escape {byte : UInt8} (ascii : byte.toNat < 0x80) (text : Text) :
    decodeComponent (text ++ percentByte byte) =
      decodeComponent text ++ [Char.ofNat byte.toNat] := by
  have escape := percentDecode_percentByte byte []
  have split : percentDecode (text ++ percentByte byte) =
      percentDecode text ++ percentDecode (percentByte byte) := percentDecode_append_escape text _
  rw [List.append_nil] at escape
  unfold decodeComponent
  rw [split, escape]
  exact utf8Lossy_append_ascii ascii _ _ none fun q held => nomatch held

end Reading

section Weight

/-- How much pairs hold: their characters, and one for each pair. -/
def weight (pairs : List (String × Text)) : Nat :=
  (pairs.flatMap fun pair => '&' :: (pair.1.toList ++ pair.2)).length

theorem weight_append (pairs others : List (String × Text)) :
    weight (pairs ++ others) = weight pairs + weight others := by
  simp only [weight, List.flatMap_append, List.length_append]

theorem weight_singleton (name : String) (value : Text) :
    weight [(name, value)] = name.toList.length + value.length + 1 := by
  simp only [weight, List.flatMap_singleton, List.length_cons, List.length_append]

theorem weight_perm {pairs others : List (String × Text)} (same : pairs.Perm others) :
    weight pairs = weight others :=
  (same.flatMap_right _).length_eq

theorem mem_percentByte {byte : UInt8} {c : Char} (written : c ∈ percentByte byte) :
    c = '%' ∨ c.isDigit = true ∨ c.isUpper = true := by
  have digit : ∀ n < 16, (upperHex n).isDigit = true ∨ (upperHex n).isUpper = true := by decide
  have bound := byte.toNat_lt
  simp only [percentByte, List.mem_cons, List.not_mem_nil, or_false] at written
  rcases written with rfl | rfl | rfl
  · exact .inl rfl
  · exact .inr (digit _ (by omega))
  · exact .inr (digit _ (by omega))

theorem mark_notMem_percentByte {c : Char}
    (mark : c ≠ '%' ∧ c.isDigit = false ∧ c.isUpper = false) (byte : UInt8) :
    c ∉ percentByte byte := by
  intro written
  rcases mem_percentByte written with sign | digit | upper
  · exact mark.1 sign
  · rw [mark.2.1] at digit
    exact Bool.noConfusion digit
  · rw [mark.2.2] at upper
    exact Bool.noConfusion upper

theorem readPair_unsplit {name : Text} (unsplit : '=' ∉ name) :
    readPair name = (String.ofList (decodeComponent name), []) := by
  have kept : ∀ c ∈ name, decide (c ≠ '=') = true := fun c hc =>
    decide_eq_true fun h : c = '=' => unsplit (h ▸ hc)
  rw [readPair, List.takeWhile_eq_self_iff.mpr kept, List.dropWhile_eq_nil_iff.mpr kept]
  rfl

/-- An escape at the end of the text adds to its pairs. -/
theorem weight_escape {byte : UInt8} (ascii : byte.toNat < 0x80) (text : Text) :
    weight (formPairs text) < weight (formPairs (text ++ percentByte byte)) := by
  have uncut := mark_notMem_percentByte (by decide : '&' ≠ '%' ∧ _) byte
  have unsplit := mark_notMem_percentByte (by decide : '=' ≠ '%' ∧ _) byte
  induction hn : text.length using Nat.strong_induction_on generalizing text with
  | _ n ih =>
    by_cases cut : '&' ∈ text
    · obtain ⟨front, rest, rfl, -⟩ := List.eq_append_cons_of_mem cut
      have less := ih rest.length (by rw [← hn, List.length_append, List.length_cons]; omega) rest rfl
      rw [List.append_assoc, List.cons_append, formPairs_append, formPairs_append, weight_append,
        weight_append]
      omega
    · have whole : '&' ∉ text ++ percentByte byte := by simp [cut, uncut]
      have inhabited : text ++ percentByte byte ≠ [] := by simp [percentByte]
      rw [formPairs_uncut whole inhabited]
      by_cases empty : text = []
      · subst empty
        rw [weight_singleton]
        exact Nat.succ_pos _
      · rw [formPairs_uncut cut empty]
        by_cases split : '=' ∈ text
        · obtain ⟨name, value, rfl, first⟩ := List.eq_append_cons_of_mem split
          rw [List.append_assoc, List.cons_append, readPair_eq first, readPair_eq first,
            weight_singleton, weight_singleton, decodeComponent_append_escape ascii,
            List.length_append]
          exact Nat.lt_succ_of_le (Nat.le_refl _)
        · have still : '=' ∉ text ++ percentByte byte := by simp [split, unsplit]
          rw [readPair_unsplit split, readPair_unsplit still, weight_singleton, weight_singleton,
            decodeComponent_append_escape ascii, String.toList_ofList, String.toList_ofList,
            List.length_append]
          exact Nat.lt_succ_of_le (Nat.le_refl _)

theorem weight_escapes {bytes : List UInt8} (ascii : ∀ byte ∈ bytes, byte.toNat < 0x80)
    (inhabited : bytes ≠ []) (text : Text) :
    weight (formPairs text) < weight (formPairs (text ++ bytes.flatMap percentByte)) := by
  induction bytes generalizing text with
  | nil => exact absurd rfl inhabited
  | cons byte bytes ih =>
      have first := weight_escape (ascii byte List.mem_cons_self) text
      rw [List.flatMap_cons, ← List.append_assoc]
      cases bytes with
      | nil => rwa [List.flatMap_nil, List.append_nil]
      | cons next bytes =>
          have rest := ih (fun other mem => ascii other (List.mem_cons_of_mem byte mem))
            (List.cons_ne_nil next bytes) (text ++ percentByte byte)
          exact first.trans rest

end Weight

section Pairs

/-- The characters that the serializer writes. -/
def isWritten (c : Char) : Bool := isSerializedPlain c || ['%', '+'].contains c

theorem isWritten_of_plain {c : Char} (plain : isSerializedPlain c = true) : isWritten c = true := by
  unfold isWritten
  rw [plain, Bool.true_or]

theorem written_percentByte {byte : UInt8} {c : Char} (written : c ∈ percentByte byte) :
    isWritten c = true := by
  rcases mem_percentByte written with rfl | digit | upper
  · decide
  · refine isWritten_of_plain ?_
    simp only [isSerializedPlain, Char.isAlphanum, digit, Bool.or_true, Bool.true_or]
  · refine isWritten_of_plain ?_
    simp only [isSerializedPlain, Char.isAlphanum, Char.isAlpha, upper, Bool.true_or]

theorem written_byteSerialize {value : Text} {c : Char} (mem : c ∈ byteSerialize value) :
    isWritten c = true := by
  obtain ⟨d, -, mem⟩ := List.mem_flatMap.mp mem
  split_ifs at mem with plain blank
  · rw [List.mem_singleton] at mem
    exact mem ▸ isWritten_of_plain plain
  · rw [List.mem_singleton] at mem
    exact mem ▸ rfl
  · obtain ⟨byte, -, mem⟩ := List.mem_flatMap.mp mem
    exact written_percentByte mem

theorem written_range {c : Char} (written : isWritten c = true) : 0x20 < c.toNat ∧ c.toNat < 0x7f := by
  simp only [isWritten, isSerializedPlain, Char.isAlphanum, Char.isAlpha, Char.isUpper, Char.isLower,
    Char.isDigit, Bool.or_eq_true, Bool.and_eq_true, decide_eq_true_eq, List.contains_iff_mem,
    List.mem_cons, List.not_mem_nil, or_false, ge_iff_le, UInt32.le_iff_toNat_le] at written
  rcases written with (((upper | lower) | digit) | mark) | escape
  · have low : 65 ≤ c.toNat := upper.1
    have high : c.toNat ≤ 90 := upper.2
    omega
  · have low : 97 ≤ c.toNat := lower.1
    have high : c.toNat ≤ 122 := lower.2
    omega
  · have low : 48 ≤ c.toNat := digit.1
    have high : c.toNat ≤ 57 := digit.2
    omega
  · rcases mark with rfl | rfl | rfl | rfl <;> decide
  · rcases escape with rfl | rfl <;> decide

/-- What is written passes through a URL's query as it is. -/
theorem written_passes {c : Char} (written : isWritten c = true) (special : Bool) :
    Whatwg.isC0OrSpace c = false ∧ Whatwg.querySet special c = false ∧ c ≠ '#' := by
  obtain ⟨low, high⟩ := written_range written
  have other {d : Char} (unwritten : isWritten d = false) : c ≠ d := by
    rintro rfl
    rw [written] at unwritten
    cases unwritten
  refine ⟨decide_eq_false (by omega), ?_, other rfl⟩
  have control : Whatwg.c0ControlSet c = false := by
    simp only [Whatwg.c0ControlSet, Bool.or_eq_false_iff, decide_eq_false_iff_not]
    omega
  have marks : [' ', '"', '#', '<', '>'].contains c = false := by
    refine Bool.eq_false_iff.mpr fun found => ?_
    simp only [List.contains_iff_mem, List.mem_cons, List.not_mem_nil, or_false] at found
    rcases found with same | same | same | same | same <;> exact other rfl same
  have quote : (c == '\x27') = false := beq_eq_false_iff_ne.mpr (other rfl)
  simp only [Whatwg.querySet, control, marks, quote, Bool.and_false, Bool.or_self]

/-- A name that the serializer leaves as it is. -/
def PlainName (name : Text) : Prop := ∀ c ∈ name, isSerializedPlain c = true

theorem byteSerialize_plain {name : Text} (plain : PlainName name) : byteSerialize name = name := by
  induction name with
  | nil => rfl
  | cons c name ih =>
      have rest := ih fun d mem => plain d (List.mem_cons_of_mem c mem)
      unfold byteSerialize at rest ⊢
      rw [List.flatMap_cons, if_pos (plain c List.mem_cons_self), rest]
      rfl

/-- A written pair is read as it was. -/
theorem formPairs_written {name : Text} (plain : PlainName name) (value : Text) :
    formPairs (name ++ '=' :: byteSerialize value) = [(String.ofList name, value)] := by
  have mark {c : Char} (other : isSerializedPlain c = false) : c ∉ name := by
    intro mem
    have same := plain c mem
    rw [other] at same
    exact Bool.noConfusion same
  have uncut : '&' ∉ name ++ '=' :: byteSerialize value := by
    intro mem
    rcases List.mem_append.mp mem with first | rest
    · exact mark rfl first
    · rcases List.mem_cons.mp rest with equals | value
      · exact absurd equals (by decide)
      · exact absurd (written_byteSerialize value) (by decide)
  have read := decodeComponent_byteSerialize name
  rw [byteSerialize_plain plain] at read
  rw [formPairs_uncut uncut (by simp), readPair_eq (mark rfl), read, decodeComponent_byteSerialize]

end Pairs

end SP42.FormEncoding
