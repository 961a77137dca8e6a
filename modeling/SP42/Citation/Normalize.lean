import SP42.Base.Text
import SP42.Lib.Bytes

/-!
The two normalizers of the locator: the quote is normalized as a whole, the source unit
by unit, with the byte where the unit of each character begins.
-/
namespace SP42.Citation

/-- What the code uses of the Unicode tables. -/
structure Unicode where
  nfc : Text → Text
  toLowercase : Char → Text
  isCombiningMark : Char → Bool
  isAlphanumeric : Char → Bool

/-- The tables as far as ASCII goes. -/
def asciiTables : Unicode where
  nfc := id
  toLowercase c := [c.toLower]
  isCombiningMark _ := false
  isAlphanumeric := Char.isAlphanum

/-- A typographic quote or dash as its ASCII form. -/
def substitute (c : Char) : Char :=
  if c ∈ ['\u2018', '\u2019', '\u201A', '\u201B', '\u2032'] then '\x27'
  else if c ∈ ['\u201C', '\u201D', '\u201E', '\u201F', '\u2033'] then '"'
  else if c ∈ ['\u2010', '\u2011', '\u2012', '\u2013', '\u2014', '\u2015', '\u2212'] then '-'
  else c

def isZeroWidth (c : Char) : Bool := ['\u200B', '\u200C', '\u200D', '\uFEFF'].contains c

section Normalizers

variable (unicode : Unicode)

/-- The loop of `normalize_for_match`, with whether the last character written is a space. -/
def foldChars (prevSpace : Bool) : Text → Text
  | [] => []
  | c :: rest =>
      if isZeroWidth c then foldChars prevSpace rest
      else if Text.isWhitespace c then
        if prevSpace then foldChars true rest else ' ' :: foldChars true rest
      else unicode.toLowercase (substitute c) ++ foldChars false rest

def normalizeForMatch (text : Text) : Text := Text.trim (foldChars unicode false (unicode.nfc text))

/-- The characters of a normalized text, each with the byte of the source that its unit
begins at. -/
abbrev Mapped := List (Char × Nat)

def Mapped.text (mapped : Mapped) : Text := mapped.map Prod.fst

def Mapped.offsets (mapped : Mapped) : List Nat := mapped.map Prod.snd

/-- A completed unit: its normal form, all of it at the start of the unit. -/
def flushUnit (unit : Text) (unitStart : Nat) : Mapped :=
  if unit = [] then []
  else (unicode.nfc unit).flatMap fun c => (unicode.toLowercase c).map fun low => (low, unitStart)

/-- The loop of `normalize_with_map`, with the unit under way. -/
def mapChars (prevSpace : Bool) (unit : Text) (unitStart byteOffset : Nat) : Text → Mapped
  | [] => flushUnit unicode unit unitStart
  | c :: rest =>
      let next := byteOffset + c.utf8Size
      if isZeroWidth c then mapChars prevSpace unit unitStart next rest
      else if Text.isWhitespace c then
        flushUnit unicode unit unitStart ++
          ((if prevSpace then [] else [(' ', byteOffset)]) ++ mapChars true [] unitStart next rest)
      else if unit ≠ [] ∧ unicode.isCombiningMark c then
        mapChars false (unit ++ [substitute c]) unitStart next rest
      else flushUnit unicode unit unitStart ++ mapChars false [substitute c] byteOffset next rest

def normalizeWithMap (source : Text) : Mapped := mapChars unicode false [] 0 0 source

end Normalizers

section Offsets

variable {unicode : Unicode}

@[simp] theorem flushUnit_nil (unitStart : Nat) : flushUnit unicode [] unitStart = [] := rfl

theorem offset_of_flushUnit {unit : Text} {unitStart : Nat} {entry : Char × Nat}
    (member : entry ∈ flushUnit unicode unit unitStart) : unit ≠ [] ∧ entry.2 = unitStart := by
  unfold flushUnit at member
  split at member
  · cases member
  · rename_i inhabited
    obtain ⟨_, _, low⟩ := List.mem_flatMap.mp member
    obtain ⟨_, _, rfl⟩ := List.mem_map.mp low
    exact ⟨inhabited, rfl⟩

/-- The least byte that the rest of the loop can still write. -/
def pendingByte (unit : Text) (unitStart byteOffset : Nat) : Nat :=
  if unit = [] then byteOffset else unitStart

/-- Every byte written is that of a character, and none lies before the unit under way. -/
theorem mapChars_offset {source before rest : Text} {prevSpace : Bool} {unit : Text}
    {unitStart : Nat} (split : source = before ++ rest)
    (start : unit ≠ [] → Bytes.Boundary source unitStart ∧ unitStart ≤ Bytes.size before)
    {entry : Char × Nat}
    (member : entry ∈ mapChars unicode prevSpace unit unitStart (Bytes.size before) rest) :
    Bytes.Boundary source entry.2 ∧ pendingByte unit unitStart (Bytes.size before) ≤ entry.2 := by
  have flushed : entry ∈ flushUnit unicode unit unitStart →
      Bytes.Boundary source entry.2 ∧ pendingByte unit unitStart (Bytes.size before) ≤ entry.2 := by
    intro inside
    obtain ⟨inhabited, offset⟩ := offset_of_flushUnit inside
    rw [offset, pendingByte, if_neg inhabited]
    exact ⟨(start inhabited).1, Nat.le_refl _⟩
  induction rest generalizing before prevSpace unit unitStart with
  | nil => exact flushed member
  | cons c rest ih =>
      have here : Bytes.Boundary source (Bytes.size before) := ⟨before, c :: rest, split, rfl⟩
      have advanced : Bytes.size before + c.utf8Size = Bytes.size (before ++ [c]) := by simp
      have splitNext : source = (before ++ [c]) ++ rest := by simp [split]
      have low : pendingByte unit unitStart (Bytes.size before) ≤ Bytes.size before := by
        unfold pendingByte
        split
        · exact Nat.le_refl _
        · exact (start ‹_›).2
      have flush {unit : Text} {unitStart : Nat}
          (start : unit ≠ [] → Bytes.Boundary source unitStart ∧
            unitStart ≤ Bytes.size (before ++ [c])) :
          entry ∈ flushUnit unicode unit unitStart → Bytes.Boundary source entry.2 ∧
            pendingByte unit unitStart (Bytes.size (before ++ [c])) ≤ entry.2 := by
        intro inside
        obtain ⟨inhabited, offset⟩ := offset_of_flushUnit inside
        rw [offset, pendingByte, if_neg inhabited]
        exact ⟨(start inhabited).1, Nat.le_refl _⟩
      have grown : Bytes.size before ≤ Bytes.size (before ++ [c]) := by simp
      have kept : unit ≠ [] → Bytes.Boundary source unitStart ∧
          unitStart ≤ Bytes.size (before ++ [c]) :=
        fun inhabited => ⟨(start inhabited).1, Nat.le_trans (start inhabited).2 grown⟩
      simp only [mapChars, advanced] at member
      split at member
      · obtain ⟨boundary, above⟩ := ih splitNext kept member (flush kept)
        refine ⟨boundary, Nat.le_trans ?_ above⟩
        unfold pendingByte
        split
        · exact grown
        · exact Nat.le_refl _
      · split at member
        · rcases List.mem_append.mp member with inside | member
          · exact flushed inside
          · rcases List.mem_append.mp member with space | member
            · split at space
              · cases space
              · rw [List.mem_singleton.mp space]
                exact ⟨here, low⟩
            · have fresh : ([] : Text) ≠ [] → Bytes.Boundary source unitStart ∧
                  unitStart ≤ Bytes.size (before ++ [c]) := fun absurd_ => absurd rfl absurd_
              obtain ⟨boundary, above⟩ := ih splitNext fresh member (flush fresh)
              exact ⟨boundary, Nat.le_trans low (Nat.le_trans grown above)⟩
        · split at member
          · rename_i mark
            have longer : unit ++ [substitute c] ≠ [] := by simp
            have kept' : unit ++ [substitute c] ≠ [] → Bytes.Boundary source unitStart ∧
                unitStart ≤ Bytes.size (before ++ [c]) := fun _ => kept mark.1
            obtain ⟨boundary, above⟩ := ih splitNext kept' member (flush kept')
            rw [pendingByte, if_neg longer] at above
            rw [pendingByte, if_neg mark.1]
            exact ⟨boundary, above⟩
          · rcases List.mem_append.mp member with inside | member
            · exact flushed inside
            · have opened : [substitute c] ≠ [] → Bytes.Boundary source (Bytes.size before) ∧
                  Bytes.size before ≤ Bytes.size (before ++ [c]) := fun _ => ⟨here, grown⟩
              obtain ⟨boundary, above⟩ := ih splitNext opened member (flush opened)
              rw [pendingByte, if_neg (List.cons_ne_nil _ _)] at above
              exact ⟨boundary, Nat.le_trans low above⟩

theorem flushUnit_sorted (unit : Text) (unitStart : Nat) :
    (flushUnit unicode unit unitStart).Pairwise fun a b => a.2 ≤ b.2 := by
  apply List.pairwise_of_forall_mem_list
  intro a first b second
  rw [(offset_of_flushUnit first).2, (offset_of_flushUnit second).2]

/-- The bytes are written in order. -/
theorem mapChars_sorted {source before rest : Text} {prevSpace : Bool} {unit : Text}
    {unitStart : Nat} (split : source = before ++ rest)
    (start : unit ≠ [] → Bytes.Boundary source unitStart ∧ unitStart ≤ Bytes.size before) :
    (mapChars unicode prevSpace unit unitStart (Bytes.size before) rest).Pairwise
      fun a b => a.2 ≤ b.2 := by
  induction rest generalizing before prevSpace unit unitStart with
  | nil => exact flushUnit_sorted unit unitStart
  | cons c rest ih =>
      have here : Bytes.Boundary source (Bytes.size before) := ⟨before, c :: rest, split, rfl⟩
      have advanced : Bytes.size before + c.utf8Size = Bytes.size (before ++ [c]) := by simp
      have splitNext : source = (before ++ [c]) ++ rest := by simp [split]
      have grown : Bytes.size before ≤ Bytes.size (before ++ [c]) := by simp
      have kept : unit ≠ [] → Bytes.Boundary source unitStart ∧
          unitStart ≤ Bytes.size (before ++ [c]) :=
        fun inhabited => ⟨(start inhabited).1, Nat.le_trans (start inhabited).2 grown⟩
      have fresh : ([] : Text) ≠ [] → Bytes.Boundary source unitStart ∧
          unitStart ≤ Bytes.size (before ++ [c]) := fun inhabited => absurd rfl inhabited
      have opened : [substitute c] ≠ [] → Bytes.Boundary source (Bytes.size before) ∧
          Bytes.size before ≤ Bytes.size (before ++ [c]) := fun _ => ⟨here, grown⟩
      have flushed {a : Char × Nat} (member : a ∈ flushUnit unicode unit unitStart) :
          a.2 ≤ Bytes.size before := by
        obtain ⟨inhabited, offset⟩ := offset_of_flushUnit member
        exact offset ▸ (start inhabited).2
      simp only [mapChars, advanced]
      split
      · exact ih splitNext kept
      · split
        · rw [List.pairwise_append]
          refine ⟨flushUnit_sorted unit unitStart, ?_, ?_⟩
          · rw [List.pairwise_append]
            refine ⟨by split <;> simp, ih splitNext fresh, ?_⟩
            intro a space b later
            have above := (mapChars_offset splitNext fresh later).2
            split at space
            · cases space
            · rw [List.mem_singleton.mp space]
              exact Nat.le_trans grown above
          · intro a inside b later
            refine Nat.le_trans (flushed inside) ?_
            rcases List.mem_append.mp later with space | later
            · split at space
              · cases space
              · rw [List.mem_singleton.mp space]
            · exact Nat.le_trans grown (mapChars_offset splitNext fresh later).2
        · split
          · rename_i mark
            exact ih splitNext fun _ => kept mark.1
          · rw [List.pairwise_append]
            refine ⟨flushUnit_sorted unit unitStart, ih splitNext opened, ?_⟩
            intro a inside b later
            have above := (mapChars_offset splitNext opened later).2
            rw [pendingByte, if_neg (List.cons_ne_nil _ _)] at above
            exact Nat.le_trans (flushed inside) above

theorem normalizeWithMap_boundary {source : Text} {entry : Char × Nat}
    (member : entry ∈ normalizeWithMap unicode source) : Bytes.Boundary source entry.2 :=
  (@mapChars_offset unicode source [] source false [] 0 rfl
    (fun inhabited => absurd rfl inhabited) entry member).1

theorem normalizeWithMap_sorted (source : Text) :
    (normalizeWithMap unicode source).Pairwise fun a b => a.2 ≤ b.2 :=
  @mapChars_sorted unicode source [] source false [] 0 rfl fun inhabited => absurd rfl inhabited

end Offsets

end SP42.Citation
