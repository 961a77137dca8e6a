import SP42.Citation.Normalize

/-!
The units of a source: a base character and the marks behind it, zero-width characters left
out. The normalized source is their normal forms in order, with single spaces between.
-/
namespace SP42.Citation

variable (unicode : Unicode)

/-- The character goes on with the unit before it. -/
def continues (c : Char) : Bool :=
  isZeroWidth c || (!Text.isWhitespace c && unicode.isCombiningMark c)

/-- Behind the text a unit is under way: its last visible character is no whitespace. -/
def underWay (before : Text) : Bool :=
  ((before.filter fun c => !isZeroWidth c).getLast?).any fun c => !Text.isWhitespace c

/-- The character begins a unit. -/
def opens (before : Text) (c : Char) : Bool :=
  !isZeroWidth c && !Text.isWhitespace c && !(underWay before && unicode.isCombiningMark c)

/-- The characters of a unit as the normalizer reads them. -/
def unitChars (text : Text) : Text := (text.filter fun c => !isZeroWidth c).map substitute

/-- The unit of the source that begins at the byte. -/
def UnitAt (source : Text) (start : Nat) (unit : Text) : Prop :=
  ∃ before c rest, source = before ++ c :: rest ∧ Bytes.size before = start ∧
    opens unicode before c = true ∧ unit = unitChars (c :: rest.takeWhile (continues unicode))

/-- A character of whitespace begins at the byte. -/
def SpaceAt (source : Text) (start : Nat) : Prop :=
  ∃ before c rest, source = before ++ c :: rest ∧ Bytes.size before = start ∧
    Text.isWhitespace c = true

def normalUnit (unit : Text) : Text := (unicode.nfc unit).flatMap unicode.toLowercase

/-- The mapped text is made of the spaces and of the normal forms of the units. -/
inductive Pieces (source : Text) : Mapped → Prop
  | nil : Pieces source []
  | space {start : Nat} {rest : Mapped} (stands : SpaceAt source start)
      (behind : Pieces source rest) : Pieces source ((' ', start) :: rest)
  | unit {start : Nat} {unit : Text} {rest : Mapped} (stands : UnitAt unicode source start unit)
      (behind : Pieces source rest) :
      Pieces source ((normalUnit unicode unit).map (·, start) ++ rest)

/-- The character at the index stems from the unit at the byte. -/
def StemsFrom (source : Text) (mapped : Mapped) (index start : Nat) : Prop :=
  ∃ front unit back, mapped = front ++ ((normalUnit unicode unit).map (·, start) ++ back) ∧
    UnitAt unicode source start unit ∧ front.length ≤ index ∧
    index < front.length + (normalUnit unicode unit).length

variable {unicode}

/-- A unit is determined by where it begins. -/
theorem UnitAt.unique {source : Text} {start : Nat} {unit other : Text}
    (here : UnitAt unicode source start unit) (there : UnitAt unicode source start other) :
    unit = other := by
  obtain ⟨before, c, rest, whole, size, -, rfl⟩ := here
  obtain ⟨front, d, back, same, length, -, rfl⟩ := there
  obtain ⟨-, later⟩ := Bytes.cut_unique (whole.symm.trans same) (size.trans length.symm)
  cases later
  rfl

theorem flushUnit_eq (unit : Text) (start : Nat) (inhabited : unit ≠ []) :
    flushUnit unicode unit start = (normalUnit unicode unit).map (·, start) := by
  rw [flushUnit, if_neg inhabited, normalUnit, List.map_flatMap]

section Tracking

variable (unicode) in
/-- Where the loop stands: the unit under way and what was read of it. -/
structure Tracks (before unit : Text) (start : Nat) : Prop where
  under : underWay before = true ↔ unit ≠ []
  opened : unit ≠ [] → ∃ front c mid, before = front ++ c :: mid ∧ Bytes.size front = start ∧
    opens unicode front c = true ∧ (∀ d ∈ mid, continues unicode d = true) ∧
    unit = unitChars (c :: mid)

variable {before unit rest : Text} {start : Nat} {c : Char}

theorem underWay_zeroWidth (thin : isZeroWidth c = true) :
    underWay (before ++ [c]) = underWay before := by
  rw [underWay, List.filter_append, List.filter_singleton, thin]
  simp [underWay]

theorem underWay_visible (visible : isZeroWidth c = false) :
    underWay (before ++ [c]) = !Text.isWhitespace c := by
  rw [underWay, List.filter_append, List.filter_singleton, visible]
  simp

theorem unitChars_append (front back : Text) :
    unitChars (front ++ back) = unitChars front ++ unitChars back := by
  rw [unitChars, List.filter_append, List.map_append]
  rfl

theorem unitChars_visible (visible : isZeroWidth c = false) : unitChars [c] = [substitute c] := by
  rw [unitChars, List.filter_singleton, visible]
  rfl

theorem unitChars_zeroWidth (thin : isZeroWidth c = true) : unitChars [c] = [] := by
  rw [unitChars, List.filter_singleton, thin]
  rfl

theorem Tracks.nothing (start : Nat) : Tracks unicode [] [] start :=
  ⟨by simp [underWay], fun inhabited => absurd rfl inhabited⟩

theorem Tracks.zeroWidth (tracks : Tracks unicode before unit start) (thin : isZeroWidth c = true) :
    Tracks unicode (before ++ [c]) unit start := by
  refine ⟨(underWay_zeroWidth thin).symm ▸ tracks.under, fun inhabited => ?_⟩
  obtain ⟨front, d, mid, whole, size, begins, goesOn, same⟩ := tracks.opened inhabited
  refine ⟨front, d, mid ++ [c], by rw [whole]; simp, size, begins, ?_, ?_⟩
  · intro e member
    rcases List.mem_append.mp member with earlier | last
    · exact goesOn e earlier
    · rw [List.mem_singleton.mp last, continues, thin, Bool.true_or]
  · rw [← List.cons_append, unitChars_append, ← same, unitChars_zeroWidth thin, List.append_nil]

theorem Tracks.space (visible : isZeroWidth c = false) (blank : Text.isWhitespace c = true)
    (before : Text) (start : Nat) : Tracks unicode (before ++ [c]) [] start := by
  refine ⟨?_, fun inhabited => absurd rfl inhabited⟩
  rw [underWay_visible visible, blank]
  simp

theorem Tracks.mark (tracks : Tracks unicode before unit start) (visible : isZeroWidth c = false)
    (solid : Text.isWhitespace c = false) (inhabited : unit ≠ [])
    (mark : unicode.isCombiningMark c = true) :
    Tracks unicode (before ++ [c]) (unit ++ [substitute c]) start := by
  obtain ⟨front, d, mid, whole, size, begins, goesOn, same⟩ := tracks.opened inhabited
  refine ⟨?_, fun _ => ⟨front, d, mid ++ [c], by rw [whole]; simp, size, begins, ?_, ?_⟩⟩
  · rw [underWay_visible visible, solid]
    simp
  · intro e member
    rcases List.mem_append.mp member with earlier | last
    · exact goesOn e earlier
    · rw [List.mem_singleton.mp last, continues, solid, mark]
      simp
  · rw [← List.cons_append, unitChars_append, ← same, unitChars_visible visible]

theorem Tracks.begin (tracks : Tracks unicode before unit start) (visible : isZeroWidth c = false)
    (solid : Text.isWhitespace c = false) (base : ¬ (unit ≠ [] ∧ unicode.isCombiningMark c = true)) :
    Tracks unicode (before ++ [c]) [substitute c] (Bytes.size before) := by
  refine ⟨?_, fun _ => ⟨before, c, [], rfl, rfl, ?_, nofun, (unitChars_visible visible).symm⟩⟩
  · rw [underWay_visible visible, solid]
    simp
  · rw [← tracks.under, ← Bool.and_eq_true, Bool.not_eq_true] at base
    rw [opens, visible, solid, base]
    rfl

/-- Where the unit under way ends, it stands in the source. -/
theorem Tracks.ends (tracks : Tracks unicode before unit start) (inhabited : unit ≠ [])
    (stops : ∀ c ∈ rest.head?, continues unicode c = false) :
    UnitAt unicode (before ++ rest) start unit := by
  obtain ⟨front, d, mid, whole, size, begins, goesOn, same⟩ := tracks.opened inhabited
  refine ⟨front, d, mid ++ rest, by rw [whole]; simp, size, begins, ?_⟩
  have here : rest.takeWhile (continues unicode) = [] := by
    cases rest with
    | nil => rfl
    | cons c rest => rw [List.takeWhile_cons, stops c rfl]; rfl
  rw [List.takeWhile_append_of_pos goesOn, here, List.append_nil]
  exact same

theorem Tracks.flush (tracks : Tracks unicode before unit start)
    (stops : ∀ c ∈ rest.head?, continues unicode c = false) {back : Mapped}
    (behind : Pieces unicode (before ++ rest) back) :
    Pieces unicode (before ++ rest) (flushUnit unicode unit start ++ back) := by
  by_cases inhabited : unit = []
  · rw [inhabited]
    exact behind
  · rw [flushUnit_eq unit start inhabited]
    exact .unit (tracks.ends inhabited stops) behind

end Tracking

theorem mapChars_pieces {source before rest : Text} {prevSpace : Bool} {unit : Text} {start : Nat}
    (split : source = before ++ rest) (tracks : Tracks unicode before unit start) :
    Pieces unicode source (mapChars unicode prevSpace unit start (Bytes.size before) rest) := by
  induction rest generalizing before prevSpace unit start with
  | nil =>
      rw [mapChars, ← List.append_nil (flushUnit _ _ _), split]
      refine tracks.flush ?_ .nil
      rintro d ⟨⟩
  | cons c rest ih =>
      have advanced : Bytes.size before + c.utf8Size = Bytes.size (before ++ [c]) := by simp
      have splitNext : source = (before ++ [c]) ++ rest := by simp [split]
      simp only [mapChars, advanced]
      by_cases thin : isZeroWidth c = true
      · rw [if_pos thin]
        exact ih splitNext (tracks.zeroWidth thin)
      have visible := eq_false_of_ne_true thin
      rw [if_neg thin]
      by_cases blank : Text.isWhitespace c = true
      · rw [if_pos blank]
        have later := @ih _ true _ start splitNext (Tracks.space visible blank before start)
        have stops : ∀ d ∈ (c :: rest).head?, continues unicode d = false := by
          rintro d ⟨⟩
          rw [continues, visible, blank]
          rfl
        rw [split] at later ⊢
        refine tracks.flush stops ?_
        split
        · exact later
        · exact .space ⟨before, c, rest, rfl, rfl, blank⟩ later
      have solid := eq_false_of_ne_true blank
      rw [if_neg blank]
      by_cases mark : unit ≠ [] ∧ unicode.isCombiningMark c = true
      · rw [if_pos mark]
        exact ih splitNext (tracks.mark visible solid mark.1 mark.2)
      · rw [if_neg mark]
        have later := @ih _ false _ _ splitNext (tracks.begin visible solid mark)
        by_cases inhabited : unit = []
        · rw [inhabited]
          exact later
        have base : unicode.isCombiningMark c = false :=
          eq_false_of_ne_true fun combining => mark ⟨inhabited, combining⟩
        have stops : ∀ d ∈ (c :: rest).head?, continues unicode d = false := by
          rintro d ⟨⟩
          rw [continues, visible, solid, base]
          rfl
        rw [split] at later ⊢
        exact tracks.flush stops later

theorem normalizeWithMap_pieces (source : Text) :
    Pieces unicode source (normalizeWithMap unicode source) :=
  @mapChars_pieces unicode source [] source false [] 0 rfl (Tracks.nothing 0)

/-- A character of the normalized source is a space or stems from a unit. -/
theorem Pieces.entry {source : Text} {mapped : Mapped} (pieces : Pieces unicode source mapped)
    {index start : Nat} {c : Char} (entry : mapped[index]? = some (c, start)) :
    c = ' ' ∧ SpaceAt source start ∨ StemsFrom unicode source mapped index start := by
  induction pieces generalizing index with
  | nil => cases entry
  | @space first rest stands behind ih =>
      cases index with
      | zero =>
          cases entry
          exact .inl ⟨rfl, stands⟩
      | succ index =>
          refine (ih entry).imp_right ?_
          rintro ⟨front, unit, back, whole, there, low, high⟩
          refine ⟨(' ', first) :: front, unit, back, congrArg _ whole, there, ?_, ?_⟩
          · exact Nat.succ_le_succ low
          · rw [List.length_cons]
            omega
  | @unit first unit rest stands behind ih =>
      have length : ((normalUnit unicode unit).map (·, first)).length =
        (normalUnit unicode unit).length := List.length_map _
      by_cases inside : index < (normalUnit unicode unit).length
      · rw [List.getElem?_append_left (length ▸ inside), List.getElem?_map] at entry
        obtain ⟨d, -, same⟩ := Option.map_eq_some_iff.mp entry
        cases same
        exact .inr ⟨[], unit, rest, rfl, stands, Nat.zero_le _, by simpa using inside⟩
      · rw [List.getElem?_append_right (length ▸ Nat.le_of_not_lt inside)] at entry
        refine (ih entry).imp_right ?_
        rintro ⟨front, other, back, whole, there, low, high⟩
        refine ⟨(normalUnit unicode unit).map (·, first) ++ front, other, back, ?_, there, ?_, ?_⟩
        · rw [List.append_assoc, ← whole]
        · rw [List.length_append]
          omega
        · rw [List.length_append]
          omega

end SP42.Citation
