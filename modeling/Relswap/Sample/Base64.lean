import Relswap.Durable.Check
import Relswap.App

/-!
# The standard base64 alphabet

An encoder with padding, and a decoder that accepts the canonical texts only.
-/

namespace Relswap.Sample

open Durable

def alphabet : List Char :=
  "ABCDEFGHIJKLMNOPQRSTUVWXYZabcdefghijklmnopqrstuvwxyz0123456789+/".toList

def symbol (n : Nat) : Char := alphabet.getD n 'A'

def symbolValue (c : Char) : Nat := alphabet.idxOf c

def base64Chars : Bytes → List Char
  | [] => []
  | [a] => [symbol (a.toNat / 4), symbol (a.toNat % 4 * 16), '=', '=']
  | [a, b] =>
    [symbol (a.toNat / 4), symbol (a.toNat % 4 * 16 + b.toNat / 16), symbol (b.toNat % 16 * 4), '=']
  | a :: b :: c :: rest =>
    symbol (a.toNat / 4) :: symbol (a.toNat % 4 * 16 + b.toNat / 16) ::
      symbol (b.toNat % 16 * 4 + c.toNat / 64) :: symbol (c.toNat % 64) :: base64Chars rest

/-- The bytes of groups of four symbols. -/
def base64Bytes : List Char → Option Bytes
  | [] => some []
  | w :: x :: y :: z :: rest =>
    if z = '=' then
      if y = '=' then some [UInt8.ofNat (symbolValue w * 4 + symbolValue x / 16)]
      else some [UInt8.ofNat (symbolValue w * 4 + symbolValue x / 16),
        UInt8.ofNat (symbolValue x % 16 * 16 + symbolValue y / 4)]
    else do
      let bytes ← base64Bytes rest
      return UInt8.ofNat (symbolValue w * 4 + symbolValue x / 16) ::
        UInt8.ofNat (symbolValue x % 16 * 16 + symbolValue y / 4) ::
        UInt8.ofNat (symbolValue y % 4 * 64 + symbolValue z) :: bytes
  | _ => none

def encodeBase64 (bytes : Bytes) : String := String.ofList (base64Chars bytes)

def decodeBase64 (text : String) : Except String Bytes := do
  let bytes ← orError (base64Bytes text.toList) "invalid length"
  check (base64Chars bytes = text.toList) "invalid symbol or padding"
  return bytes

theorem symbolValue_symbol {n : Nat} (small : n < 64) :
    symbolValue (symbol n) = n ∧ symbol n ≠ '=' := by
  have all : ∀ k : Fin 64, symbolValue (symbol k) = k ∧ symbol k ≠ '=' := by
    decide +kernel
  exact all ⟨n, small⟩

theorem ofNat_of_eq {n : Nat} (byte : UInt8) (same : n = byte.toNat) : UInt8.ofNat n = byte := by
  rw [same, UInt8.ofNat_toNat]

theorem base64Bytes_base64Chars (bytes : Bytes) : base64Bytes (base64Chars bytes) = some bytes := by
  have byteRange : ∀ byte : UInt8, byte.toNat < 256 := fun byte => byte.toNat_lt
  induction bytes using base64Chars.induct with
  | case1 => rfl
  | case2 a =>
    have range := byteRange a
    obtain ⟨first, _⟩ := symbolValue_symbol (n := a.toNat / 4) (by omega)
    obtain ⟨second, _⟩ := symbolValue_symbol (n := a.toNat % 4 * 16) (by omega)
    rw [base64Chars, base64Bytes, if_pos rfl, if_pos rfl, first, second,
      ofNat_of_eq a (by omega)]
  | case3 a b =>
    have range := byteRange a
    have range' := byteRange b
    obtain ⟨first, _⟩ := symbolValue_symbol (n := a.toNat / 4) (by omega)
    obtain ⟨second, _⟩ := symbolValue_symbol (n := a.toNat % 4 * 16 + b.toNat / 16) (by omega)
    obtain ⟨third, pads⟩ := symbolValue_symbol (n := b.toNat % 16 * 4) (by omega)
    rw [base64Chars, base64Bytes, if_pos rfl, if_neg pads, first, second, third,
      ofNat_of_eq a (by omega), ofNat_of_eq b (by omega)]
  | case4 a b c rest ih =>
    have range := byteRange a
    have range' := byteRange b
    have range'' := byteRange c
    obtain ⟨first, _⟩ := symbolValue_symbol (n := a.toNat / 4) (by omega)
    obtain ⟨second, _⟩ := symbolValue_symbol (n := a.toNat % 4 * 16 + b.toNat / 16) (by omega)
    obtain ⟨third, _⟩ := symbolValue_symbol (n := b.toNat % 16 * 4 + c.toNat / 64) (by omega)
    obtain ⟨fourth, pads⟩ := symbolValue_symbol (n := c.toNat % 64) (by omega)
    rw [base64Chars, base64Bytes, if_neg pads, first, second, third, fourth, ih,
      ofNat_of_eq a (by omega), ofNat_of_eq b (by omega),
      ofNat_of_eq c (by omega)]
    rfl

theorem decode_encodeBase64 (bytes : Bytes) : decodeBase64 (encodeBase64 bytes) = .ok bytes := by
  rw [decodeBase64, encodeBase64, String.toList_ofList, base64Bytes_base64Chars]
  exact bind_eq_ok.mpr ⟨bytes, rfl, bind_eq_ok.mpr ⟨(), check_pass rfl, rfl⟩⟩

end Relswap.Sample
