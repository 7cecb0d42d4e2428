/-!
# Reading UTF-8

Bytes are decoded one at a time. Between characters the decoder holds nothing; inside one it holds
the bits read so far, how many continuation bytes are owed, and the bounds of the next of them. An
ill-formed sequence becomes one replacement character for each longest part that could still have
been the beginning of a character, and decoding goes on at the byte that broke it. A byte order
mark is kept.
-/

namespace AsmLexer.Text.Utf8

/-- A character of which some bytes are still owed. -/
structure Pending where
  bits : Nat
  owed : Nat
  lower : Nat
  upper : Nat

/-- What a byte means between characters. -/
inductive Lead
  | char (c : Char)
  | opens (pending : Pending)
  | invalid

/-- U+FFFD, which stands for what could not be decoded. -/
def replacement : Char := '\uFFFD'

/-- The bounds after `E0`, `ED`, `F0` and `F4` rule out overlong forms, surrogates and code points
beyond the last one. -/
def lead (byte : Nat) : Lead :=
  if byte < 0x80 then .char (Char.ofNat byte)
  else if byte < 0xC2 then .invalid
  else if byte < 0xE0 then .opens ⟨byte - 0xC0, 1, 0x80, 0xBF⟩
  else if byte < 0xF0 then
    let lower := if byte = 0xE0 then 0xA0 else 0x80
    let upper := if byte = 0xED then 0x9F else 0xBF
    .opens ⟨byte - 0xE0, 2, lower, upper⟩
  else if byte < 0xF5 then
    let lower := if byte = 0xF0 then 0x90 else 0x80
    let upper := if byte = 0xF4 then 0x8F else 0xBF
    .opens ⟨byte - 0xF0, 3, lower, upper⟩
  else .invalid

/-- The characters decoded so far and the one being read. -/
structure Decoder where
  chars : Array Char := #[]
  pending : Option Pending := none

namespace Decoder

/-- Take a byte that begins a character. -/
def start (d : Decoder) (byte : Nat) : Decoder :=
  match lead byte with
  | .char c => { chars := d.chars.push c }
  | .opens p => { chars := d.chars, pending := some p }
  | .invalid => { chars := d.chars.push replacement }

/-- Take the next byte. -/
def step (d : Decoder) (byte : Nat) : Decoder :=
  match d.pending with
  | none => d.start byte
  | some p =>
      if p.lower ≤ byte ∧ byte ≤ p.upper then
        let bits := p.bits * 64 + (byte - 0x80)
        if p.owed ≤ 1 then { chars := d.chars.push (Char.ofNat bits) }
        else { d with pending := some ⟨bits, p.owed - 1, 0x80, 0xBF⟩ }
      else start { chars := d.chars.push replacement } byte

/-- The characters at the end of the bytes; one that is still owed bytes is ill-formed. -/
def finish (d : Decoder) : Array Char :=
  match d.pending with
  | none => d.chars
  | some _ => d.chars.push replacement

end Decoder

def decode (bytes : List UInt8) : String :=
  let decoder := bytes.foldl (fun d byte ↦ d.step byte.toNat) ({} : Decoder)
  String.ofList decoder.finish.toList

end AsmLexer.Text.Utf8
