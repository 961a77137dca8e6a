import SP42.Base.Text

/-!
How a server reads `application/x-www-form-urlencoded` text: cut at `&` and at the
first `=`, with `+` read as a blank, percent escapes as octets, and the octets as
UTF-8 in which what is invalid becomes the replacement character.
-/
namespace SP42.FormEncoding

/-- A UTF-8 sequence under way: how many octets it still needs, the range of the next one,
and the bits read so far. -/
structure Pending where
  need : Nat
  low : Nat
  high : Nat
  bits : Nat
  deriving DecidableEq, Repr

inductive Lead where
  | single (c : Char)
  | sequence (pending : Pending)
  | invalid
  deriving DecidableEq, Repr

/-- What an octet begins. -/
def lead (octet : Nat) : Lead :=
  if octet < 0x80 then .single (Char.ofNat octet)
  else if octet < 0xc2 then .invalid
  else if octet ≤ 0xdf then .sequence ⟨1, 0x80, 0xbf, octet - 0xc0⟩
  else if octet = 0xe0 then .sequence ⟨2, 0xa0, 0xbf, octet - 0xe0⟩
  else if octet = 0xed then .sequence ⟨2, 0x80, 0x9f, octet - 0xe0⟩
  else if octet ≤ 0xef then .sequence ⟨2, 0x80, 0xbf, octet - 0xe0⟩
  else if octet = 0xf0 then .sequence ⟨3, 0x90, 0xbf, octet - 0xf0⟩
  else if octet ≤ 0xf3 then .sequence ⟨3, 0x80, 0xbf, octet - 0xf0⟩
  else if octet = 0xf4 then .sequence ⟨3, 0x80, 0x8f, octet - 0xf0⟩
  else .invalid

/-- A decoded escape, or a character that stands for itself. -/
inductive Piece where
  | octet (value : Nat)
  | plain (c : Char)
  deriving DecidableEq, Repr

/-- `String::from_utf8_lossy`, with the sequence under way. A plain character is a whole
sequence of its own and ends an unfinished one. -/
def utf8Lossy : Option Pending → List Piece → Text
  | none, [] => []
  | some _, [] => ['\uFFFD']
  | none, .plain c :: rest => c :: utf8Lossy none rest
  | some _, .plain c :: rest => '\uFFFD' :: c :: utf8Lossy none rest
  | none, .octet value :: rest =>
    match lead value with
    | .single c => c :: utf8Lossy none rest
    | .sequence pending => utf8Lossy (some pending) rest
    | .invalid => '\uFFFD' :: utf8Lossy none rest
  | some pending, .octet value :: rest =>
      if pending.low ≤ value ∧ value ≤ pending.high then
        let bits := pending.bits * 64 + (value - 0x80)
        if pending.need ≤ 1 then Char.ofNat bits :: utf8Lossy none rest
        else utf8Lossy (some ⟨pending.need - 1, 0x80, 0xbf, bits⟩) rest
      else
        match lead value with
        | .single c => '\uFFFD' :: c :: utf8Lossy none rest
        | .sequence next => '\uFFFD' :: utf8Lossy (some next) rest
        | .invalid => '\uFFFD' :: '\uFFFD' :: utf8Lossy none rest

def hexValue (c : Char) : Option Nat :=
  if c.isDigit then some (c.toNat - '0'.toNat)
  else if 'a' ≤ c ∧ c ≤ 'f' then some (c.toNat - 'a'.toNat + 10)
  else if 'A' ≤ c ∧ c ≤ 'F' then some (c.toNat - 'A'.toNat + 10)
  else none

/-- The octet that two hexadecimal digits write. -/
def escaped (a b : Char) : Option Nat :=
  match hexValue a, hexValue b with
  | some high, some low => some (high * 16 + low)
  | _, _ => none

def percentDecode : Text → List Piece
  | [] => []
  | '%' :: a :: b :: rest =>
    match escaped a b with
    | some value => .octet value :: percentDecode rest
    | none => .plain '%' :: percentDecode (a :: b :: rest)
  | c :: rest => .plain (if c = '+' then ' ' else c) :: percentDecode rest

def decodeComponent (text : Text) : Text := utf8Lossy none (percentDecode text)

/-- One nonempty piece between ampersands, cut at its first equals sign. -/
def readPair (piece : Text) : String × Text :=
  (String.ofList (decodeComponent (piece.takeWhile (· ≠ '='))),
    decodeComponent ((piece.dropWhile (· ≠ '=')).drop 1))

def formPairs (input : Text) : List (String × Text) :=
  ((input.splitOn '&').filter (· ≠ [])).map readPair

/-- The text has a percent sign before two hexadecimal digits. -/
def HasEscape (text : Text) : Prop :=
  ∃ a b, ['%', a, b] <:+: text ∧ (escaped a b).isSome = true

/-- The reader finds the text as it was written. -/
structure Plain (text : Text) : Prop where
  uncut : '&' ∉ text
  noPlus : '+' ∉ text
  noEscape : ¬ HasEscape text

theorem utf8Lossy_length (pending : Option Pending) (pieces : List Piece) :
    (utf8Lossy pending pieces).length ≤ pending.toList.length + pieces.length := by
  fun_induction utf8Lossy pending pieces <;> simp_all <;> omega

theorem utf8Lossy_plain (text : Text) : utf8Lossy none (text.map .plain) = text := by
  induction text with
  | nil => rfl
  | cons c text ih => exact congrArg (c :: ·) ih

theorem HasEscape.cons {text : Text} (c : Char) (h : HasEscape text) : HasEscape (c :: text) := by
  obtain ⟨a, b, found, hex⟩ := h
  exact ⟨a, b, List.infix_cons found, hex⟩

theorem percentDecode_length (text : Text) : (percentDecode text).length ≤ text.length := by
  fun_induction percentDecode text with
  | case1 => exact le_rfl
  | case2 a b rest value hex ih => simp only [List.length_cons]; omega
  | case3 a b rest hex ih => simpa using ih
  | case4 c rest other ih => simpa using ih

/-- Without an escape only the plus signs are read as something else. -/
theorem percentDecode_eq {text : Text} (whole : ¬ HasEscape text) :
    percentDecode text = text.map fun c => .plain (if c = '+' then ' ' else c) := by
  fun_induction percentDecode text with
  | case1 => rfl
  | case2 a b rest value hex ih =>
      exact absurd ⟨a, b, ⟨[], rest, rfl⟩, by simp [hex]⟩ whole
  | case3 a b rest hex ih =>
      rw [ih fun h => whole (h.cons _)]
      rfl
  | case4 c rest _ ih =>
      rw [ih fun h => whole (h.cons _)]
      rfl

/-- An escape makes the reading shorter. -/
theorem percentDecode_shorter {text : Text} (h : HasEscape text) :
    (percentDecode text).length < text.length := by
  fun_induction percentDecode text with
  | case1 =>
      obtain ⟨a, b, found, -⟩ := h
      simp at found
  | case2 a b rest value hex ih =>
      have rest_le := percentDecode_length rest
      simp only [List.length_cons]
      omega
  | case3 a b rest hex ih =>
      obtain ⟨a', b', found, hex'⟩ := h
      rcases List.infix_cons_iff.mp found with first | later
      · obtain ⟨⟨rfl, rfl⟩, -⟩ : (a' = a ∧ b' = b) ∧ True := by simpa using first
        simp [hex] at hex'
      · have shorter := ih ⟨a', b', later, hex'⟩
        simpa using shorter
  | case4 c rest other ih =>
      obtain ⟨a, b, found, hex⟩ := h
      rcases List.infix_cons_iff.mp found with first | later
      · obtain ⟨rest', eq⟩ := first
        obtain ⟨rfl, tail⟩ := List.cons.inj eq
        exact absurd tail.symm (other a b rest' rfl)
      · have shorter := ih ⟨a, b, later, hex⟩
        simpa using shorter

theorem decodeComponent_length (text : Text) : (decodeComponent text).length ≤ text.length := by
  have lossy := utf8Lossy_length none (percentDecode text)
  have decoded := percentDecode_length text
  simp only [Option.toList_none, List.length_nil, Nat.zero_add] at lossy
  exact lossy.trans decoded

theorem decodeComponent_eq {text : Text} (whole : ¬ HasEscape text) :
    decodeComponent text = text.map fun c => if c = '+' then ' ' else c := by
  have pieces : percentDecode text = (text.map fun c => if c = '+' then ' ' else c).map .plain := by
    rw [percentDecode_eq whole, List.map_map]
    rfl
  rw [decodeComponent, pieces, utf8Lossy_plain]

theorem decodeComponent_plain {text : Text} (noPlus : '+' ∉ text) (whole : ¬ HasEscape text) :
    decodeComponent text = text := by
  rw [decodeComponent_eq whole]
  refine (List.map_congr_left fun c hc => ?_).trans (List.map_id text)
  exact if_neg fun h : c = '+' => noPlus (h ▸ hc)

/-- Only a text without plus signs and escapes is read back, even up to the blanks around it. -/
theorem plain_of_read_back {text : Text} (h : Text.trim (decodeComponent text) = text) :
    '+' ∉ text ∧ ¬ HasEscape text := by
  have shape := Text.trim_sublist (decodeComponent text)
  have whole : ¬ HasEscape text := by
    intro escape
    have lossy := utf8Lossy_length none (percentDecode text)
    have shorter := percentDecode_shorter escape
    have kept := shape.length_le
    simp only [Option.toList_none, List.length_nil, Nat.zero_add] at lossy
    rw [h] at kept
    exact absurd (kept.trans lossy) (Nat.not_le.mpr shorter)
  refine ⟨fun plus => ?_, whole⟩
  have decoded := decodeComponent_eq whole
  have same : text.map (fun c => if c = '+' then ' ' else c) = text := by
    rw [← decoded]
    refine (shape.eq_of_length ?_).symm.trans h
    rw [h, decoded, List.length_map]
  have fixed := (List.map_inj_left.mp (same.trans (List.map_id text).symm)) '+' plus
  exact absurd fixed (by decide)

theorem formPairs_append (front rest : Text) :
    formPairs (front ++ '&' :: rest) = formPairs front ++ formPairs rest := by
  simp only [formPairs, List.splitOn_append_cons_self, List.filter_append, List.map_append]

theorem formPairs_uncut {text : Text} (uncut : '&' ∉ text) (inhabited : text ≠ []) :
    formPairs text = [readPair text] := by
  simp [formPairs, List.splitOn_eq_singleton uncut, inhabited]

theorem readPair_eq {name value : Text} (unsplit : '=' ∉ name) :
    readPair (name ++ '=' :: value) =
      (String.ofList (decodeComponent name), decodeComponent value) := by
  have cut : ∀ c ∈ name, decide (c ≠ '=') = true := fun c hc =>
    decide_eq_true fun h : c = '=' => unsplit (h ▸ hc)
  rw [readPair, List.takeWhile_append_of_pos cut, List.dropWhile_append_of_pos cut]
  simp

/-- A value that is read is not longer than the text it comes from. -/
theorem formPairs_value_length {text : Text} {name : String} {value : Text}
    (h : (name, value) ∈ formPairs text) : value.length ≤ text.length := by
  induction hn : text.length using Nat.strong_induction_on generalizing text with
  | _ n ih =>
    by_cases cut : '&' ∈ text
    · obtain ⟨front, rest, rfl, -⟩ := List.eq_append_cons_of_mem cut
      rw [formPairs_append, List.mem_append] at h
      have total : front.length + (rest.length + 1) = n := by simpa using hn
      rcases h with h | h
      · have := ih front.length (by omega) h rfl; omega
      · have := ih rest.length (by omega) h rfl; omega
    · by_cases empty : text = []
      · subst empty; simp [formPairs] at h
      · rw [formPairs_uncut cut empty, List.mem_singleton] at h
        obtain rfl : value = decodeComponent ((text.dropWhile (· ≠ '=')).drop 1) :=
          congrArg Prod.snd h
        calc _ ≤ ((text.dropWhile (· ≠ '=')).drop 1).length := decodeComponent_length _
          _ ≤ (text.dropWhile (· ≠ '=')).length := by rw [List.length_drop]; omega
          _ ≤ n := hn ▸ (List.dropWhile_sublist _).length_le

end SP42.FormEncoding
