import Mathlib.Data.List.Basic
import Mathlib.Data.UInt
import Mathlib.Tactic.Common
import Mathlib.Tactic.SplitIfs

/-!
The URL-safe base 64 of bytes, without padding: three bytes in four symbols. What is written is
read back, so different bytes are written differently.
-/
namespace Base64

def symbols : List Char :=
  "ABCDEFGHIJKLMNOPQRSTUVWXYZabcdefghijklmnopqrstuvwxyz0123456789-_".toList

def symbol (n : Nat) : Char := symbols.getD n 'A'

def value (c : Char) : Option Nat := symbols.findIdx? (· == c)

def encode : List UInt8 → List Char
  | [] => []
  | [a] => [symbol (a.toNat / 4), symbol (a.toNat % 4 * 16)]
  | [a, b] =>
      [symbol (a.toNat / 4), symbol (a.toNat % 4 * 16 + b.toNat / 16), symbol (b.toNat % 16 * 4)]
  | a :: b :: c :: rest =>
      symbol (a.toNat / 4) :: symbol (a.toNat % 4 * 16 + b.toNat / 16) ::
        symbol (b.toNat % 16 * 4 + c.toNat / 64) :: symbol (c.toNat % 64) :: encode rest

def byte (n : Nat) : UInt8 := UInt8.ofNat n

/-- The reader. The bits that no byte takes are dropped. -/
def decode : List Char → Option (List UInt8)
  | [] => some []
  | [p, q] => do
      let p ← value p
      let q ← value q
      pure [byte (p * 4 + q / 16)]
  | [p, q, r] => do
      let p ← value p
      let q ← value q
      let r ← value r
      pure [byte (p * 4 + q / 16), byte (q * 16 + r / 4)]
  | p :: q :: r :: s :: rest => do
      let p ← value p
      let q ← value q
      let r ← value r
      let s ← value s
      let rest ← decode rest
      pure (byte (p * 4 + q / 16) :: byte (q * 16 + r / 4) :: byte (r * 64 + s) :: rest)
  | [_] => none

theorem value_symbol : ∀ n < 64, value (symbol n) = some n := by decide

theorem byte_of_mod {a : UInt8} {n : Nat} (same : n % 256 = a.toNat) : byte n = a := by
  apply UInt8.toNat_inj.mp
  rw [byte, UInt8.toNat_ofNat']
  exact same

/-- What is written is read back. -/
theorem decode_encode (bytes : List UInt8) : decode (encode bytes) = some bytes := by
  fun_induction encode bytes with
  | case1 => rfl
  | case2 a =>
      have bound := a.toNat_lt
      have first := value_symbol (a.toNat / 4) (by omega)
      have second := value_symbol (a.toNat % 4 * 16) (by omega)
      have whole : byte (a.toNat / 4 * 4 + a.toNat % 4 * 16 / 16) = a := byte_of_mod (by omega)
      simp only [decode, first, second, Option.bind_eq_bind, Option.bind_some, Option.pure_def,
        whole]
  | case3 a b =>
      have boundA := a.toNat_lt
      have boundB := b.toNat_lt
      have first := value_symbol (a.toNat / 4) (by omega)
      have second := value_symbol (a.toNat % 4 * 16 + b.toNat / 16) (by omega)
      have third := value_symbol (b.toNat % 16 * 4) (by omega)
      have wholeA : byte (a.toNat / 4 * 4 + (a.toNat % 4 * 16 + b.toNat / 16) / 16) = a :=
        byte_of_mod (by omega)
      have wholeB : byte ((a.toNat % 4 * 16 + b.toNat / 16) * 16 + b.toNat % 16 * 4 / 4) = b :=
        byte_of_mod (by omega)
      simp only [decode, first, second, third, Option.bind_eq_bind, Option.bind_some,
        Option.pure_def, wholeA, wholeB]
  | case4 a b c rest ih =>
      have boundA := a.toNat_lt
      have boundB := b.toNat_lt
      have boundC := c.toNat_lt
      have first := value_symbol (a.toNat / 4) (by omega)
      have second := value_symbol (a.toNat % 4 * 16 + b.toNat / 16) (by omega)
      have third := value_symbol (b.toNat % 16 * 4 + c.toNat / 64) (by omega)
      have fourth := value_symbol (c.toNat % 64) (by omega)
      have wholeA : byte (a.toNat / 4 * 4 + (a.toNat % 4 * 16 + b.toNat / 16) / 16) = a :=
        byte_of_mod (by omega)
      have wholeB : byte ((a.toNat % 4 * 16 + b.toNat / 16) * 16 +
          (b.toNat % 16 * 4 + c.toNat / 64) / 4) = b := byte_of_mod (by omega)
      have wholeC : byte ((b.toNat % 16 * 4 + c.toNat / 64) * 64 + c.toNat % 64) = c :=
        byte_of_mod (by omega)
      simp only [decode, first, second, third, fourth, ih, Option.bind_eq_bind, Option.bind_some,
        Option.pure_def, wholeA, wholeB, wholeC]

theorem encode_injective : Function.Injective encode := by
  intro bytes others same
  have read := decode_encode bytes
  rw [same, decode_encode] at read
  exact (Option.some.inj read).symm

theorem length_encode (bytes : List UInt8) :
    (encode bytes).length = (bytes.length * 4 + 2) / 3 := by
  fun_induction encode bytes with
  | case1 => rfl
  | case2 a => simp
  | case3 a b => simp
  | case4 a b c rest ih =>
      simp only [List.length_cons, ih]
      omega

theorem mem_encode {bytes : List UInt8} {c : Char} (mem : c ∈ encode bytes) :
    ∃ n < 64, c = symbol n := by
  fun_induction encode bytes with
  | case1 => cases mem
  | case2 a =>
      have bound := a.toNat_lt
      simp only [List.mem_cons, List.not_mem_nil, or_false] at mem
      rcases mem with rfl | rfl <;> exact ⟨_, by omega, rfl⟩
  | case3 a b =>
      have boundA := a.toNat_lt
      have boundB := b.toNat_lt
      simp only [List.mem_cons, List.not_mem_nil, or_false] at mem
      rcases mem with rfl | rfl | rfl <;> exact ⟨_, by omega, rfl⟩
  | case4 a b c rest ih =>
      have boundA := a.toNat_lt
      have boundB := b.toNat_lt
      have boundC := c.toNat_lt
      rcases List.mem_cons.mp mem with rfl | mem
      · exact ⟨_, by omega, rfl⟩
      rcases List.mem_cons.mp mem with rfl | mem
      · exact ⟨_, by omega, rfl⟩
      rcases List.mem_cons.mp mem with rfl | mem
      · exact ⟨_, by omega, rfl⟩
      rcases List.mem_cons.mp mem with rfl | mem
      · exact ⟨_, by omega, rfl⟩
      · exact ih mem

end Base64
