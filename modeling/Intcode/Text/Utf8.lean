import Intcode.Text.Quoted

/-!
# Reading text from bytes

Files hold UTF-8. Bytes that are not well formed are refused at the first defect, which is
reported with the positions of the bytes that make it up. Line ends are unified when a file
is read: a carriage return, with or without a line feed after it, reads as a line feed.
-/
namespace Intcode.Text.Utf8

inductive Reason where
  | invalidStart
  | invalidContinuation
  | unexpectedEnd
  deriving DecidableEq, Repr

/-- The first defect of a byte sequence: its first byte, where that stands, and how many
bytes belong to it. -/
structure Defect where
  lead : UInt8
  position : Nat
  width : Nat
  reason : Reason
  deriving DecidableEq, Repr

def Reason.text : Reason → String
  | .invalidStart => "invalid start byte"
  | .invalidContinuation => "invalid continuation byte"
  | .unexpectedEnd => "unexpected end of data"

/-- The wording of a defect; one byte is shown, several are given by their positions. -/
def Defect.message (d : Defect) : String :=
  let place :=
    if d.width ≤ 1 then
      "byte 0x" ++ String.ofList (hexadecimal 2 d.lead.toNat) ++ s!" in position {d.position}"
    else s!"bytes in position {d.position}-{d.position + d.width - 1}"
  "'utf-8' codec can't decode " ++ place ++ ": " ++ d.reason.text

/-- A character whose first bytes have been read: how many bytes are still missing, between
which bounds the next one must lie, and the bits read so far. -/
structure Pending where
  lead : UInt8
  start : Nat
  taken : Nat
  missing : Nat
  low : UInt8
  high : UInt8
  bits : Nat

/-- What the first byte of a character of more than one byte announces. The bounds on the
second byte rule out overlong forms, surrogates and values past U+10FFFF. -/
def announce? (b : UInt8) (start : Nat) : Option Pending :=
  let n := b.toNat
  let pending (missing : Nat) (low high : UInt8) (bits : Nat) : Option Pending :=
    some ⟨b, start, 1, missing, low, high, bits⟩
  if n < 0xC2 then none
  else if n < 0xE0 then pending 1 0x80 0xBF (n - 0xC0)
  else if n = 0xE0 then pending 2 0xA0 0xBF 0
  else if n = 0xED then pending 2 0x80 0x9F 0xD
  else if n < 0xF0 then pending 2 0x80 0xBF (n - 0xE0)
  else if n = 0xF0 then pending 3 0x90 0xBF 0
  else if n < 0xF4 then pending 3 0x80 0xBF (n - 0xF0)
  else if n = 0xF4 then pending 3 0x80 0x8F 4
  else none

/-- Read bytes from a position on, with a character begun or not; `done` holds the
characters read so far, the last one first. -/
def decodeFrom : List UInt8 → Nat → Option Pending → List Char → Except Defect (List Char)
  | [], _, none, done => .ok done.reverse
  | [], _, some p, _ => .error ⟨p.lead, p.start, p.taken, .unexpectedEnd⟩
  | b :: rest, position, none, done =>
    if b.toNat < 0x80 then decodeFrom rest (position + 1) none (Char.ofNat b.toNat :: done)
    else
      match announce? b position with
      | none => .error ⟨b, position, 1, .invalidStart⟩
      | some p => decodeFrom rest (position + 1) (some p) done
  | b :: rest, position, some p, done =>
    if p.low ≤ b ∧ b ≤ p.high then
      let bits := 0x40 * p.bits + (b.toNat - 0x80)
      if p.missing ≤ 1 then decodeFrom rest (position + 1) none (Char.ofNat bits :: done)
      else
        decodeFrom rest (position + 1)
          (some ⟨p.lead, p.start, p.taken + 1, p.missing - 1, 0x80, 0xBF, bits⟩) done
    else .error ⟨p.lead, p.start, p.taken, .invalidContinuation⟩

def decode (bytes : List UInt8) : Except Defect (List Char) :=
  decodeFrom bytes 0 none []

def unifyLineEnds : List Char → List Char
  | '\r' :: '\n' :: rest => '\n' :: unifyLineEnds rest
  | '\r' :: rest => '\n' :: unifyLineEnds rest
  | c :: rest => c :: unifyLineEnds rest
  | [] => []

def readText (bytes : List UInt8) : Except Defect String :=
  match decode bytes with
  | .ok text => .ok (String.ofList (unifyLineEnds text))
  | .error defect => .error defect

end Intcode.Text.Utf8
