import Mathlib.Logic.Function.Basic
import SP42.Base.Number
import SP42.Lib.Bytes

/-!
The two storages behind the one interface, and what a storage promises: a value that was
accepted is read back under its key, and no other key is touched.
-/
namespace SP42.Storage

inductive StorageError where
  | operation (message : Text)
  | statePoisoned (resource : Text)
  deriving DecidableEq

/-- The interface of a storage of bytes under keys. -/
class Backend (σ : Type) where
  get : σ → Text → Except StorageError (Option (List UInt8))
  set : σ → Text → List UInt8 → σ × Except StorageError Unit

section Memory

structure MemoryStorage where
  values : Text → Option (List UInt8)

instance : Backend MemoryStorage where
  get storage key := .ok (storage.values key)
  set storage key value :=
    ({ storage with values := Function.update storage.values key (some value) }, .ok ())

end Memory

section Files

/-- A directory: its files, and the number of the next temporary file. -/
structure FileStorage where
  files : Text → Option (List UInt8)
  sequence : Nat

/-- `str::as_bytes`. -/
def utf8 (text : Text) : List UInt8 := text.flatMap String.utf8EncodeChar

def hexDigit (n : Nat) : Char := "0123456789abcdef".toList.getD n '0'

/-- `{byte:02x}`. -/
def hexByte (byte : UInt8) : Text := [hexDigit (byte.toNat / 16), hexDigit (byte.toNat % 16)]

def keyPath (key : Text) : Text := (utf8 key).flatMap hexByte ++ ".bin".toList

def tempPath (key : Text) (sequence : Nat) : Text :=
  '.' :: (keyPath key ++ '.' :: (Text.ofNat sequence ++ ".tmp".toList))

/-- The longest file name, in bytes; the names here are ASCII. -/
def nameLimit : Nat := 255

def nameTooLong : StorageError := .operation "File name too long".toList

instance : Backend FileStorage where
  get storage key :=
    if (keyPath key).length ≤ nameLimit then .ok (storage.files (keyPath key)) else .error nameTooLong
  set storage key value :=
    -- the number is taken before anything is written
    let next := { storage with sequence := (storage.sequence + 1) % (u64Max + 1) }
    if (tempPath key storage.sequence).length ≤ nameLimit then
      ({ next with files := Function.update storage.files (keyPath key) (some value) }, .ok ())
    else (next, .error nameTooLong)

end Files

section Promise

/-- What is accepted while there is room is read back, and nothing else changes. -/
structure Reliable (σ : Type) [Backend σ] (room : σ → Text → Prop) : Prop where
  accepts : ∀ (storage : σ) key value, room storage key → (Backend.set storage key value).2 = .ok ()
  refuses : ∀ (storage : σ) key value, ¬ room storage key →
    ∃ error, (Backend.set storage key value).2 = .error error
  same : ∀ (storage : σ) key value, room storage key →
    Backend.get (Backend.set storage key value).1 key = .ok (some value)
  other : ∀ (storage : σ) key value otherKey, otherKey ≠ key →
    Backend.get (Backend.set storage key value).1 otherKey = Backend.get storage otherKey

theorem memory_reliable : Reliable MemoryStorage fun _ _ => True where
  accepts _ _ _ _ := rfl
  refuses _ _ _ full := absurd trivial full
  same storage key value _ := congrArg Except.ok (Function.update_self key (some value) storage.values)
  other storage _ value _ different :=
    congrArg Except.ok (Function.update_of_ne different (some value) storage.values)

theorem utf8_inj {a b : Text} (same : utf8 a = utf8 b) : a = b := by
  have encoded : a.utf8Encode = b.utf8Encode := congrArg List.toByteArray same
  have decoded := @List.utf8Decode?_utf8Encode a
  rw [encoded, List.utf8Decode?_utf8Encode, Option.some_inj] at decoded
  exact (congrArg Array.toList decoded).symm

theorem hexDigit_inj : ∀ m < 16, ∀ n < 16, hexDigit m = hexDigit n → m = n := by decide

theorem hexByte_inj {a b : UInt8} (same : hexByte a = hexByte b) : a = b := by
  obtain ⟨high, low⟩ := List.cons.inj same
  have small := a.toNat_lt
  have smallToo := b.toNat_lt
  have high := hexDigit_inj _ (by omega) _ (by omega) high
  have low := hexDigit_inj _ (by omega) _ (by omega) (List.cons.inj low).1
  exact UInt8.toNat_inj.mp (by omega)

theorem hexBytes_inj {a b : List UInt8} (same : a.flatMap hexByte = b.flatMap hexByte) : a = b := by
  induction a generalizing b with
  | nil =>
      cases b with
      | nil => rfl
      | cons byte b => cases same
  | cons byte a ih =>
      cases b with
      | nil => cases same
      | cons other b =>
          rw [List.flatMap_cons, List.flatMap_cons] at same
          obtain ⟨first, rest⟩ := List.append_inj same rfl
          rw [hexByte_inj first, ih rest]

theorem keyPath_inj {a b : Text} (same : keyPath a = keyPath b) : a = b :=
  utf8_inj (hexBytes_inj (List.append_cancel_right same))

/-- The name of the temporary file fits. -/
def nameFits (storage : FileStorage) (key : Text) : Prop :=
  (tempPath key storage.sequence).length ≤ nameLimit

/-- The temporary file has the longer name. -/
theorem keyPath_fits {storage : FileStorage} {key : Text} (fits : nameFits storage key) :
    (keyPath key).length ≤ nameLimit := by
  unfold nameFits tempPath at fits
  rw [List.length_cons, List.length_append] at fits
  omega

theorem length_le_flatMap {α β : Type} {f : α → List β} {least : Nat}
    (wide : ∀ a, least ≤ (f a).length) (text : List α) :
    least * text.length ≤ (text.flatMap f).length := by
  induction text with
  | nil => exact Nat.zero_le _
  | cons a text ih =>
      have first := wide a
      rw [List.flatMap_cons, List.length_append, List.length_cons, Nat.mul_succ]
      omega

theorem utf8_length (text : Text) : text.length ≤ (utf8 text).length := by
  have wide (c : Char) : 1 ≤ (String.utf8EncodeChar c).length := by
    rw [String.length_utf8EncodeChar]
    exact c.utf8Size_pos
  have bytes := length_le_flatMap wide text
  rwa [Nat.one_mul] at bytes

/-- Two digits for each byte leave no room for a long key. -/
theorem long_key_unfit {key : Text} (long : 123 ≤ key.length) (storage : FileStorage) :
    ¬ nameFits storage key := by
  have bytes := utf8_length key
  have wide (byte : UInt8) : 2 ≤ (hexByte byte).length := Nat.le_refl 2
  have digits := length_le_flatMap wide (utf8 key)
  have number := List.length_pos_of_ne_nil (Text.ofNat_ne_nil storage.sequence)
  unfold nameFits tempPath keyPath nameLimit
  simp only [List.length_cons, List.length_append, String.length_toList]
  have bin : ".bin".length = 4 := rfl
  have tmp : ".tmp".length = 4 := rfl
  omega

theorem file_reliable : Reliable FileStorage nameFits where
  accepts storage key value fits := by
    unfold nameFits at fits
    simp only [Backend.set, fits, if_true]
  refuses storage key value full := by
    unfold nameFits at full
    exact ⟨nameTooLong, by simp only [Backend.set, full, if_false]⟩
  same storage key value fits := by
    have short := keyPath_fits fits
    unfold nameFits at fits
    simp only [Backend.set, Backend.get, fits, short, if_true, Function.update_self]
  other storage key value other different := by
    have path : keyPath other ≠ keyPath key := fun same => different (keyPath_inj same)
    by_cases fits : nameFits storage key
    · unfold nameFits at fits
      simp only [Backend.set, Backend.get, fits, if_true, Function.update_of_ne path]
    · unfold nameFits at fits
      simp only [Backend.set, Backend.get, fits, if_false]

end Promise

end SP42.Storage
