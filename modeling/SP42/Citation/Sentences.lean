import SP42.Citation.Extract
import SP42.Citation.SegmentBytes

/-!
The sentences of a text are its parts without the white space around them, in order, and a
reference attaches to the last one that starts before its marker.
-/
namespace SP42.Citation

open Bytes (size)

def Blank (text : Text) : Prop := ∀ c ∈ text, Text.isWhitespace c = true

/-- From a position on, the text is these sentences with white space between them. -/
inductive Covers : Nat → Text → List Sentence → Prop
  | blank {position : Nat} {text : Text} : Blank text → Covers position text []
  | sentence {position : Nat} {gap text after : Text} {sentences : List Sentence} : Blank gap →
      text ≠ [] → Covers (position + size gap + size text) after sentences →
      Covers position (gap ++ (text ++ after))
        (⟨text, position + size gap, position + size gap + size text⟩ :: sentences)

section Covering

variable {letters : Letters} {position : Nat} {text after piece : Text} {sentences : List Sentence}

theorem Blank.append {gap more : Text} (first : Blank gap) (second : Blank more) :
    Blank (gap ++ more) := by
  intro c mem
  exact (List.mem_append.mp mem).elim (first c) (second c)

/-- White space before the sentences. -/
theorem Covers.indent {gap : Text} (blank : Blank gap)
    (covers : Covers (position + size gap) text sentences) :
    Covers position (gap ++ text) sentences := by
  generalize start : position + size gap = behind at covers
  cases covers with
  | blank rest => exact .blank (blank.append rest)
  | @sentence _ more body after sentences rest solid later =>
      subst start
      have place : position + size gap + size more = position + size (gap ++ more) := by
        rw [Bytes.size_append, Nat.add_assoc]
      rw [place] at later ⊢
      rw [← List.append_assoc]
      exact .sentence (blank.append rest) solid later

/-- A piece gives its sentence. -/
theorem covers_sentenceAt (covers : Covers (position + size piece) after sentences) :
    Covers position (piece ++ after) (sentenceAt position piece ++ sentences) := by
  have front : piece.takeWhile Text.isWhitespace ++ Text.trimStart piece = piece :=
    List.takeWhile_append_dropWhile
  have back : Text.trim piece ++ (Text.trimStart piece).rtakeWhile Text.isWhitespace =
    Text.trimStart piece := List.rdropWhile_append_rtakeWhile
  have before : Blank (piece.takeWhile Text.isWhitespace) :=
    fun c mem => List.mem_takeWhile_imp mem
  have behind : Blank ((Text.trimStart piece).rtakeWhile Text.isWhitespace) :=
    fun c mem => List.mem_rtakeWhile_imp mem
  have width : leadingWs piece = size (piece.takeWhile Text.isWhitespace) := by
    have sum := congrArg size front
    rw [Bytes.size_append] at sum
    rw [leadingWs]
    omega
  have total : size piece = leadingWs piece + (size (Text.trim piece) +
      size ((Text.trimStart piece).rtakeWhile Text.isWhitespace)) := by
    rw [width, ← Bytes.size_append, back, ← Bytes.size_append, front]
  unfold sentenceAt
  dsimp only
  split
  · next empty =>
      refine Covers.indent ?_ covers
      exact Text.trim_eq_nil_iff.mp empty
  · next solid =>
      have whole : piece ++ after = piece.takeWhile Text.isWhitespace ++ (Text.trim piece ++
          ((Text.trimStart piece).rtakeWhile Text.isWhitespace ++ after)) := by
        rw [← List.append_assoc (Text.trim piece), back, ← List.append_assoc, front]
      rw [whole, width, List.cons_append, List.nil_append]
      refine .sentence before solid (.indent behind ?_)
      rw [total, width] at covers
      simpa only [Nat.add_assoc] using covers

/-- The closers of a terminator and what is behind them. -/
theorem skip_closers (head piece rest : Text) :
    segmentFrom letters (rest.takeWhile isCloser).length head piece rest =
      segmentFrom letters 0 head piece (rest.dropWhile isCloser) := by
  have cut : (rest.takeWhile isCloser ++ rest.dropWhile isCloser).drop
      (rest.takeWhile isCloser).length = rest.dropWhile isCloser := List.drop_left' rfl
  rw [List.takeWhile_append_dropWhile] at cut
  rw [segmentFrom_skip _ _ _ _ (List.takeWhile_sublist isCloser).length_le, cut]

theorem segmentFrom_covers (n : Nat) : ∀ {before piece rest : Text}, rest.length ≤ n →
    Covers (size before) (piece ++ rest) (segmentFrom letters 0 (before ++ piece) piece rest) := by
  have last {before piece : Text} : Covers (size before) (piece ++ [])
      (segmentFrom letters 0 (before ++ piece) piece []) := by
    have covers := @covers_sentenceAt (size before) [] piece [] (.blank nofun)
    rwa [List.append_nil (sentenceAt _ _), sentenceAt_eq] at covers
  induction n with
  | zero =>
      intro before piece rest short
      obtain rfl := List.length_eq_zero_iff.mp (Nat.le_zero.mp short)
      exact last
  | succ n ih =>
      intro before piece rest short
      cases rest with
      | nil => exact last
      | cons c rest =>
          rw [List.length_cons] at short
          rw [segmentFrom]
          cases ends : isTerminator c with
          | false =>
              have next := @ih before (piece ++ [c]) rest (by omega)
              rwa [← List.append_assoc before, List.append_assoc piece] at next
          | true =>
              have split : rest.takeWhile isCloser ++ rest.dropWhile isCloser = rest :=
                List.takeWhile_append_dropWhile
              have fewer := congrArg List.length split
              rw [List.length_append] at fewer
              rw [if_pos rfl]
              dsimp only
              rw [skip_closers, skip_closers]
              generalize rest.takeWhile isCloser = closers at *
              generalize rest.dropWhile isCloser = after at *
              subst split
              have whole : piece ++ c :: (closers ++ after) = piece ++ c :: closers ++ after := by
                simp
              rw [whole, List.append_assoc before]
              cases isBoundary letters (before ++ piece) c after with
              | true =>
                  have later := @ih (before ++ (piece ++ c :: closers)) [] after (by omega)
                  rw [List.append_nil, List.nil_append, Bytes.size_append] at later
                  rw [if_pos rfl, ← sentenceAt_eq]
                  exact covers_sentenceAt later
              | false =>
                  rw [if_neg Bool.false_ne_true]
                  exact @ih before (piece ++ c :: closers) after (by omega)

theorem segmentSentences_covers (text : Text) :
    Covers 0 text (segmentSentences letters text) :=
  @segmentFrom_covers letters text.length [] [] text (Nat.le_refl _)

end Covering

section Partition

/-- How the sentences lie in the text: in order and apart, each at the bytes of its text, with
nothing but white space outside. -/
structure Partition (text : Text) (sentences : List Sentence) : Prop where
  ordered : sentences.Pairwise fun one other => one.stop ≤ other.start
  inhabited : ∀ sentence ∈ sentences, sentence.start < sentence.stop
  sliced : ∀ sentence ∈ sentences,
    Bytes.slice text sentence.start sentence.stop = some sentence.text
  outside : ∀ before c after, text = before ++ c :: after →
    (∀ sentence ∈ sentences, ¬ (sentence.start ≤ size before ∧ size before < sentence.stop)) →
    Text.isWhitespace c = true
  blank : sentences = [] → Blank text

variable {position : Nat} {text : Text} {sentences : List Sentence}

theorem Covers.after (covers : Covers position text sentences) :
    ∀ sentence ∈ sentences, position ≤ sentence.start ∧ sentence.start < sentence.stop := by
  induction covers with
  | blank => exact fun _ mem => absurd mem List.not_mem_nil
  | @sentence position gap body _ _ _ solid _ ih =>
      intro sentence mem
      have positive := Bytes.size_pos solid
      rcases List.mem_cons.mp mem with rfl | later
      · dsimp only
        omega
      · have := ih sentence later
        omega

theorem Covers.ordered (covers : Covers position text sentences) :
    sentences.Pairwise fun one other => one.stop ≤ other.start := by
  induction covers with
  | blank => exact List.Pairwise.nil
  | sentence _ _ later ih =>
      exact List.Pairwise.cons (fun other mem => (later.after other mem).1) ih

/-- The bytes of a sentence, where the text is a part of a longer one. -/
theorem Covers.sliced (covers : Covers position text sentences) :
    ∀ {front : Text}, size front = position → ∀ sentence ∈ sentences,
      Bytes.slice (front ++ text) sentence.start sentence.stop = some sentence.text := by
  induction covers with
  | blank => exact fun _ _ mem => absurd mem List.not_mem_nil
  | @sentence position gap body after _ _ _ _ ih =>
      intro front place sentence mem
      subst place
      rcases List.mem_cons.mp mem with rfl | later
      · refine Bytes.slice_eq.mpr ⟨front ++ gap, after, by simp, Bytes.size_append _ _, ?_⟩
        rw [Bytes.size_append]
      · have found := @ih (front ++ (gap ++ body)) (by simp only [Bytes.size_append, Nat.add_assoc])
          sentence later
        simpa only [List.append_assoc] using found

/-- A character of two parts is in the first or behind it. -/
theorem before_or_behind {front back before after : Text} {c : Char}
    (whole : front ++ back = before ++ c :: after) :
    (∃ more, front = before ++ c :: more) ∨
      ∃ more, before = front ++ more ∧ back = more ++ c :: after := by
  rcases List.append_eq_append_iff.mp whole with ⟨more, split, rest⟩ | ⟨more, split, rest⟩
  · exact Or.inr ⟨more, split, rest⟩
  · cases more with
    | nil => exact Or.inr ⟨[], by rw [split, List.append_nil, List.append_nil], rest.symm⟩
    | cons d more =>
        obtain ⟨rfl, -⟩ := List.cons.inj rest
        exact Or.inl ⟨more, split⟩

theorem Covers.outside (covers : Covers position text sentences) : ∀ before c after,
    text = before ++ c :: after →
    (∀ sentence ∈ sentences, ¬ (sentence.start ≤ position + size before ∧
      position + size before < sentence.stop)) → Text.isWhitespace c = true := by
  induction covers with
  | blank blank =>
      intro before c after whole free
      exact blank c (whole ▸ List.mem_append_right _ List.mem_cons_self)
  | @sentence position gap body rest _ blank solid later ih =>
      intro before c after whole free
      rcases before_or_behind whole with ⟨more, rfl⟩ | ⟨more, rfl, behind⟩
      · exact blank c (List.mem_append_right _ List.mem_cons_self)
      · rcases before_or_behind behind with ⟨inner, rfl⟩ | ⟨inner, rfl, last⟩
        · refine absurd ⟨?_, ?_⟩ (free _ List.mem_cons_self)
          · simp only [Bytes.size_append]
            omega
          · have := c.utf8Size_pos
            simp only [Bytes.size_append, Bytes.size_cons]
            omega
        · refine ih inner c after last fun sentence mem => ?_
          have apart := free sentence (List.mem_cons_of_mem _ mem)
          simpa only [Bytes.size_append, Nat.add_assoc] using apart

theorem partition (letters : Letters) (text : Text) :
    Partition text (segmentSentences letters text) where
  ordered := (segmentSentences_covers text).ordered
  inhabited sentence mem := ((segmentSentences_covers text).after sentence mem).2
  sliced := @Covers.sliced 0 text _ (segmentSentences_covers text) [] rfl
  outside before c after whole free :=
    (segmentSentences_covers text).outside before c after whole (by simpa using free)
  blank empty := Text.trim_eq_nil_iff.mp (segmentSentences_eq_nil.mp empty)

end Partition

section Attachment

variable {sentences : List Sentence} {offset : Nat}

/-- Sentences in order, each with some text. -/
def InOrder (sentences : List Sentence) : Prop :=
  sentences.Pairwise (fun one other => one.stop ≤ other.start) ∧
    ∀ sentence ∈ sentences, sentence.start < sentence.stop

theorem Partition.inOrder {text : Text} (parts : Partition text sentences) : InOrder sentences :=
  ⟨parts.ordered, parts.inhabited⟩

theorem InOrder.starts (inOrder : InOrder sentences) :
    sentences.Pairwise fun one other => one.start < other.start := by
  refine List.Pairwise.imp_of_mem ?_ inOrder.1
  intro one other mem _ apart
  exact Nat.lt_of_lt_of_le (inOrder.2 one mem) apart

/-- No later sentence starts up to a position before the end of the first one. -/
theorem none_starts {first : Sentence} {rest : List Sentence} {probe : Nat}
    (apart : ∀ other ∈ rest, first.stop ≤ other.start) (short : probe < first.stop) :
    rest.countP (fun sentence => sentence.start ≤ probe) = 0 := by
  refine List.countP_eq_zero.mpr fun other mem => ?_
  have := apart other mem
  simp only [decide_eq_true_eq, Nat.not_le]
  omega

/-- The loop counts the sentences that start up to the probe. -/
theorem attachFrom_eq (probe : Nat) (inOrder : InOrder sentences) : ∀ index,
    attachFrom probe index sentences =
      index + sentences.countP (fun sentence => sentence.start ≤ probe) - 1 := by
  induction sentences with
  | nil => exact fun _ => rfl
  | cons first rest ih =>
      intro index
      obtain ⟨ordered, inhabited⟩ := inOrder
      obtain ⟨apart, later⟩ := List.pairwise_cons.mp ordered
      have positive := inhabited first List.mem_cons_self
      rw [attachFrom, List.countP_cons]
      split
      · next early =>
          have none := none_starts apart (Nat.lt_trans early positive)
          rw [none, decide_eq_false (Nat.not_le.mpr early)]
          rfl
      · next started =>
          rw [decide_eq_true (Nat.not_lt.mp started)]
          split
          · next within =>
              rw [none_starts apart within]
              rfl
          · rw [ih ⟨later, fun other mem => inhabited other (List.mem_cons_of_mem _ mem)⟩]
            simp only [if_true]
            omega

/-- The sentences that start up to a position are the first ones. -/
theorem start_le_iff (starts : sentences.Pairwise fun one other => one.start < other.start)
    {probe index : Nat} {sentence : Sentence} (held : sentences[index]? = some sentence) :
    sentence.start ≤ probe ↔ index < sentences.countP fun one => one.start ≤ probe := by
  induction sentences generalizing index with
  | nil => cases held
  | cons first rest ih =>
      obtain ⟨apart, later⟩ := List.pairwise_cons.mp starts
      rw [List.countP_cons]
      by_cases early : first.start ≤ probe
      · rw [decide_eq_true early, if_pos rfl]
        cases index with
        | zero =>
            obtain rfl := Option.some.inj held
            exact iff_of_true early (Nat.succ_pos _)
        | succ index =>
            rw [ih later held]
            exact Nat.succ_lt_succ_iff.symm
      · have none : rest.countP (fun one => one.start ≤ probe) = 0 := by
          refine List.countP_eq_zero.mpr fun other mem => ?_
          have := apart other mem
          simp only [decide_eq_true_eq, Nat.not_le]
          omega
        have past : first.start ≤ sentence.start := by
          cases index with
          | zero => exact Nat.le_of_eq (congrArg Sentence.start (Option.some.inj held))
          | succ index => exact Nat.le_of_lt (apart sentence (List.mem_of_getElem? held))
        rw [none, decide_eq_false early]
        refine iff_of_false (by omega) (Nat.not_lt_zero _)

/-- The last sentence that starts before the offset, and the first one where there is none. -/
def AttachesTo (sentences : List Sentence) (offset index : Nat) : Prop :=
  ∃ sentence, sentences[index]? = some sentence ∧
    ((sentence.start < offset ∧ ∀ later other, index < later → sentences[later]? = some other →
        offset ≤ other.start) ∨
      index = 0 ∧ ∀ other ∈ sentences, offset ≤ other.start)

theorem attachIndex_attaches (inOrder : InOrder sentences) (inhabited : sentences ≠ [])
    (offset : Nat) : ∃ index, attachIndex sentences offset = some index ∧
      AttachesTo sentences offset index := by
  refine ⟨_, if_neg inhabited, ?_⟩
  rw [attachFrom_eq _ inOrder, Nat.zero_add]
  have most := @List.countP_le_length _ (fun sentence : Sentence =>
    decide (sentence.start ≤ offset - 1)) sentences
  have positive := List.length_pos_iff.mpr inhabited
  have place {index : Nat} {sentence : Sentence} (held : sentences[index]? = some sentence) :=
    @start_le_iff sentences inOrder.starts (offset - 1) index sentence held
  generalize sentences.countP (fun sentence => sentence.start ≤ offset - 1) = count at *
  have here : count - 1 < sentences.length := by omega
  refine ⟨sentences[count - 1], List.getElem?_eq_getElem here, ?_⟩
  rcases Nat.eq_zero_or_pos offset with rfl | some
  · refine Or.inr ⟨?_, fun _ _ => Nat.zero_le _⟩
    -- At most the first sentence starts at the position 0.
    by_contra several
    have second : 1 < sentences.length := by omega
    have early := (place (List.getElem?_eq_getElem second)).mpr (by omega)
    have apart := List.pairwise_iff_getElem.mp inOrder.starts 0 1 positive second Nat.zero_lt_one
    omega
  · rcases Nat.eq_zero_or_pos count with none | counted
    · refine Or.inr ⟨by omega, fun other mem => ?_⟩
      obtain ⟨index, held⟩ := List.mem_iff_getElem?.mp mem
      have late := mt (place held).mp (by omega)
      omega
    · have early := (place (List.getElem?_eq_getElem here)).mpr (by omega)
      refine Or.inl ⟨by omega, fun later other behind held => ?_⟩
      have late := mt (place held).mp (by omega)
      omega

end Attachment

/-- The scan of the bytes of any text finishes with its sentences; they lie in the text in order and
apart, with white space around them; and a reference at any offset attaches to the last of them that
starts before it. -/
theorem sentences_partition (letters : Letters) (text : Text) :
    ∃ sentences, scanSentences letters text = some sentences ∧ Partition text sentences ∧
      ∀ offset, (sentences = [] → attachIndex sentences offset = none) ∧
        (sentences ≠ [] → ∃ index, attachIndex sentences offset = some index ∧
          AttachesTo sentences offset index) := by
  have parts := partition letters text
  exact ⟨segmentSentences letters text, scanSentences_eq text, parts,
    fun offset => ⟨fun empty => if_pos empty,
      fun inhabited => attachIndex_attaches parts.inOrder inhabited offset⟩⟩

end SP42.Citation
