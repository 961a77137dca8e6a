import SP42.Intake.DigestReading

/-!
What a config version identifies. The bytes of the digest identify a pipeline of
well delimited texts up to the cutting of its string lists at commas, and free
text that imitates a delimiter makes distinct pipelines share their bytes.
-/
namespace SP42.Intake

theorem canonicalCondition_respell (c : IntakeCondition) :
    canonicalCondition (respellCondition c) = canonicalCondition c := by
  induction c with
  | all cs ih =>
      have children : (cs.map respellCondition).map canonicalCondition =
          cs.map canonicalCondition := by
        rw [List.map_map]
        exact List.map_congr_left ih
      rw [respellCondition, canonicalCondition, canonicalCondition, respellChildren_eq_map,
        canonicalChildren_eq_map, canonicalChildren_eq_map, children]
  | any cs ih =>
      have children : (cs.map respellCondition).map canonicalCondition =
          cs.map canonicalCondition := by
        rw [List.map_map]
        exact List.map_congr_left ih
      rw [respellCondition, canonicalCondition, canonicalCondition, respellChildren_eq_map,
        canonicalChildren_eq_map, canonicalChildren_eq_map, children]
  | not c ih => rw [respellCondition, canonicalCondition, canonicalCondition, ih]
  | rule r =>
      rw [respellCondition, canonicalCondition, canonicalCondition, canonicalRule, canonicalRule,
        canonicalValue_respell]

/-- Cutting the lists of a pipeline at their commas changes no byte of its digest. -/
theorem configDigestInput_respell (p : IntakePipeline) :
    configDigestInput (respell p) = configDigestInput p := by
  unfold configDigestInput digestParts respell
  rw [canonicalCondition_respell]

theorem canonicalOutcome_inj {o o' : IntakeOutcome} (h : canonicalOutcome o = canonicalOutcome o') :
    o = o' := by
  have chars := congrArg String.toList h
  cases o <;> cases o' <;> first | rfl | (simp [canonicalOutcome] at chars; done) | skip
  all_goals simpa [canonicalOutcome, String.toList_inj] using chars

theorem canonicalOutcome_ne_empty (o : IntakeOutcome) : canonicalOutcome o ≠ "" := by
  intro h
  have chars := congrArg String.toList h
  cases o <;> simp [canonicalOutcome] at chars

theorem canonicalOutcome_nulFree {o : IntakeOutcome} (h : '\x00' ∉ outcomeName o) :
    '\x00' ∉ (canonicalOutcome o).toList := by
  cases o <;> simp_all [canonicalOutcome, outcomeName]

def canonicalUnknown (o : Option IntakeOutcome) : String := (o.map canonicalOutcome).getD ""

theorem canonicalUnknown_inj {o o' : Option IntakeOutcome}
    (h : canonicalUnknown o = canonicalUnknown o') : o = o' := by
  cases o with
  | none =>
      cases o' with
      | none => rfl
      | some o' => exact absurd h.symm (canonicalOutcome_ne_empty o')
  | some o =>
      cases o' with
      | none => exact absurd h (canonicalOutcome_ne_empty o)
      | some o' => rw [canonicalOutcome_inj h]

theorem canonicalUnknown_nulFree {o : Option IntakeOutcome}
    (h : ∀ outcome, o = some outcome → '\x00' ∉ outcomeName outcome) :
    '\x00' ∉ (canonicalUnknown o).toList := by
  cases o with
  | none => decide
  | some o => exact canonicalOutcome_nulFree (h o rfl)

/-- The hashed text, with the fields that are read back from its end. -/
def digestText (p : IntakePipeline) : List Char :=
  (((digestPrefix.toList ++ p.id.toList ++ '\x00' :: (canonicalCondition p.condition).toList) ++
    '\x00' :: (canonicalOutcome p.onPass).toList) ++
    '\x00' :: (canonicalOutcome p.onFail).toList) ++
    '\x00' :: (canonicalUnknown p.onUnknown).toList

theorem configDigestInput_eq_digestText (p : IntakePipeline) :
    configDigestInput p = (String.ofList (digestText p ++ ['\x00'])).toUTF8 := by
  simp only [configDigestInput, digestParts, List.foldl_cons, List.foldl_nil,
    String.toUTF8_eq_toByteArray, ← String.toByteArray_append]
  rw [String.toByteArray_inj, ← String.toList_inj]
  simp [digestText, canonicalUnknown]

theorem configDigestInput_eq_iff (p q : IntakePipeline) :
    configDigestInput p = configDigestInput q ↔ digestText p = digestText q := by
  rw [configDigestInput_eq_digestText, configDigestInput_eq_digestText]
  constructor
  · intro h
    have text := String.ofList_injective (String.toByteArray_inj.mp h)
    exact List.append_cancel_right text
  · intro h
    rw [h]

/-- Well delimited pipelines with the same bytes are the same up to the cutting of lists. -/
theorem digestText_reads {p q : IntakePipeline} (hp : WellDelimited p) (hq : WellDelimited q)
    (h : digestText p = digestText q) : respell p = respell q := by
  obtain ⟨h, onUnknown⟩ := Framing.last_unique (canonicalUnknown_nulFree hp.onUnknown)
    (canonicalUnknown_nulFree hq.onUnknown) h
  obtain ⟨h, onFail⟩ := Framing.last_unique (canonicalOutcome_nulFree hp.onFail)
    (canonicalOutcome_nulFree hq.onFail) h
  obtain ⟨h, onPass⟩ := Framing.last_unique (canonicalOutcome_nulFree hp.onPass)
    (canonicalOutcome_nulFree hq.onPass) h
  obtain ⟨h, condition⟩ := Framing.last_unique (canonicalCondition_nulFree _ hp.condition)
    (canonicalCondition_nulFree _ hq.condition) h
  have id : p.id = q.id := String.toList_inj.mp (List.append_cancel_left h)
  obtain ⟨same, _⟩ := canonicalCondition_reads _ hp.condition _ hq.condition [] [] (by rw [condition])
  unfold respell
  rw [same, id, canonicalOutcome_inj (String.toList_inj.mp onPass),
    canonicalOutcome_inj (String.toList_inj.mp onFail),
    canonicalUnknown_inj (String.toList_inj.mp onUnknown)]

/-- The digest function tells the bytes of two pipelines apart. -/
def CollisionFree (sha256Hex : ByteArray → String) (p q : IntakePipeline) : Prop :=
  configDigest sha256Hex p = configDigest sha256Hex q → configDigestInput p = configDigestInput q

/-- Two well delimited pipelines that differ have different bytes, and versions,
exactly when they are not the same pipeline with its lists cut differently. -/
theorem configDigest_identifies_iff (p q : IntakePipeline) (hp : WellDelimited p)
    (hq : WellDelimited q) :
    ((p ≠ q → configDigestInput p ≠ configDigestInput q) ↔ (respell p = respell q → p = q)) ∧
    ∀ sha256Hex, CollisionFree sha256Hex p q →
      ((p ≠ q → configDigest sha256Hex p ≠ configDigest sha256Hex q) ↔
        (respell p = respell q → p = q)) := by
  have bytes : configDigestInput p = configDigestInput q ↔ respell p = respell q := by
    constructor
    · intro h
      exact digestText_reads hp hq ((configDigestInput_eq_iff p q).mp h)
    · intro h
      rw [← configDigestInput_respell p, h, configDigestInput_respell]
  refine ⟨?_, fun sha256Hex free => ?_⟩
  · rw [← bytes]
    exact not_imp_not
  · have versions : configDigest sha256Hex p = configDigest sha256Hex q ↔
        configDigestInput p = configDigestInput q := by
      refine ⟨free, fun h => ?_⟩
      rw [configDigest, configDigest, h]
    rw [← bytes, ← versions]
    exact not_imp_not

/-- A pipeline of one rule that admits to a patrol queue and drops the rest. -/
def oneRule (id : String) (condition : IntakeCondition) : IntakePipeline :=
  ⟨id, condition, .admitTo "patrol", .drop, none⟩

def kindIn (kinds : List String) : IntakePipeline :=
  oneRule "kinds" (.rule ⟨.eventType, .in_, .strList kinds⟩)

/-- Whatever `sha256Hex` is elsewhere, this is its value on the bytes of `kindIn ["edit", "log"]`. -/
def kindInSha256 : ByteArray → String :=
  fun _ => "df9e6f4575d85e926aa83c4987880a3cd0c850e0ff16a937b9eb1e6e1e0f345d"

theorem kindIn_delimited (kinds : List String)
    (nested : Framing.nestedFrom '(' ')' 0 (kinds.map String.toList).flatten = true)
    (nulFree : '\x00' ∉ (kinds.map String.toList).flatten) : WellDelimited (kindIn kinds) where
  condition r hr := by
    cases hr
    exact ⟨List.not_mem_nil, nested, List.not_mem_nil, nulFree⟩
  onPass := show '\x00' ∉ "patrol".toList by decide
  onFail := List.not_mem_nil
  onUnknown := fun _ h => nomatch h

theorem configDigest_identifies_iff_kinds :
    (kindIn ["edit", "log"] ≠ kindIn ["edit,log"] →
        configDigestInput (kindIn ["edit", "log"]) ≠ configDigestInput (kindIn ["edit,log"])) ↔
      (respell (kindIn ["edit", "log"]) = respell (kindIn ["edit,log"]) →
        kindIn ["edit", "log"] = kindIn ["edit,log"]) :=
  (configDigest_identifies_iff _ _ (kindIn_delimited _ (by decide) (by decide))
    (kindIn_delimited _ (by decide) (by decide))).1

def Accepted (p : IntakePipeline) : Prop := validateCondition p.condition = .ok ()

def textIs (text : String) : IntakeCondition := .rule ⟨.eventType, .eq, .str text⟩

def customIs (name text : String) : IntakePipeline :=
  oneRule "custom" (.rule ⟨.custom name, .eq, .str text⟩)

/-- Accepted pipelines that differ in a list, in the shape of the tree, in a field
name, or in their routes, and share every byte of their digest. -/
theorem configDigest_collides :
    (compilePipeline kindInSha256 (kindIn ["edit", "log"]) =
        .ok ⟨kindIn ["edit", "log"], "df9e6f4575d85e92"⟩ ∧
      compilePipeline kindInSha256 (kindIn ["edit,log"]) =
        .ok ⟨kindIn ["edit,log"], "df9e6f4575d85e92"⟩ ∧
      kindIn ["edit", "log"] ≠ kindIn ["edit,log"] ∧
      configDigestInput (kindIn ["edit", "log"]) = configDigestInput (kindIn ["edit,log"])) ∧
    (Accepted (oneRule "shape" (.all [textIs "a", textIs "b"])) ∧
      Accepted (oneRule "shape" (.all [textIs "a),rule(event_type,eq,str:b"])) ∧
      oneRule "shape" (.all [textIs "a", textIs "b"]) ≠
        oneRule "shape" (.all [textIs "a),rule(event_type,eq,str:b"]) ∧
      configDigestInput (oneRule "shape" (.all [textIs "a", textIs "b"])) =
        configDigestInput (oneRule "shape" (.all [textIs "a),rule(event_type,eq,str:b"]))) ∧
    (Accepted (customIs "a,eq,str:b" "c") ∧ Accepted (customIs "a" "b,eq,str:c") ∧
      customIs "a,eq,str:b" "c" ≠ customIs "a" "b,eq,str:c" ∧
      configDigestInput (customIs "a,eq,str:b" "c") =
        configDigestInput (customIs "a" "b,eq,str:c")) ∧
    (Accepted ⟨"routes", textIs "a", .admitTo "a\x00admit:b", .admitTo "c", none⟩ ∧
      Accepted ⟨"routes", textIs "a", .admitTo "a", .admitTo "b\x00admit:c", none⟩ ∧
      (⟨"routes", textIs "a", .admitTo "a\x00admit:b", .admitTo "c", none⟩ : IntakePipeline) ≠
        ⟨"routes", textIs "a", .admitTo "a", .admitTo "b\x00admit:c", none⟩ ∧
      configDigestInput ⟨"routes", textIs "a", .admitTo "a\x00admit:b", .admitTo "c", none⟩ =
        configDigestInput ⟨"routes", textIs "a", .admitTo "a", .admitTo "b\x00admit:c", none⟩) := by
  refine ⟨⟨rfl, rfl, ?_, ?_⟩, ⟨rfl, rfl, ?_, ?_⟩, ⟨rfl, rfl, ?_, ?_⟩, rfl, rfl, ?_, ?_⟩
  · intro h; simp [kindIn, oneRule] at h
  · exact (configDigestInput_eq_iff _ _).mpr (by decide +kernel)
  · intro h; simp [oneRule] at h
  · exact (configDigestInput_eq_iff _ _).mpr (by decide +kernel)
  · intro h; simp [customIs, oneRule] at h
  · exact (configDigestInput_eq_iff _ _).mpr (by decide +kernel)
  · intro h; simp at h
  · exact (configDigestInput_eq_iff _ _).mpr (by decide +kernel)

end SP42.Intake
