import Bundler.Text.Quoted

/-!
# Strict decoding of UTF-8

`decode` reads a sequence of bytes as text and refuses a sequence that no text is written as. The
refusal says where the first ill-formed sequence stands, which of its bytes were read, and why it
is ill-formed. The bytes read are the longest beginning of the sequence that a well-formed one
could have, or the first byte alone. `decode_toUTF8` says that what a text is written as reads back
as that text, and `decode_eq_ok_iff` that nothing else is accepted.
-/

namespace Bundler.Text.Utf8

/-- Why a sequence of bytes is ill-formed. -/
inductive Reason where
  /-- No character starts with this byte. -/
  | invalidStart
  /-- The byte after those read continues no character that starts like this. -/
  | invalidContinuation
  /-- The text ends inside a character. -/
  | unexpectedEnd
deriving DecidableEq, Repr

/-- The first ill-formed sequence of a text: its offset, the bytes read of it, and the reason. -/
structure Malformed where
  position : Nat
  bytes : List UInt8
  reason : Reason
deriving DecidableEq, Repr

/-- The bounds of the bytes that may follow `lead`, one pair for each, or nothing if no character
starts with `lead`. The first pair is narrower than the rest where a shorter form of the same
character exists, and where the character would be a surrogate or too large. -/
def continuations (lead : UInt8) : Option (List (UInt8 × UInt8)) :=
  let tail : UInt8 × UInt8 := (0x80, 0xbf)
  if lead ≤ 0x7f then some []
  else if 0xc2 ≤ lead && lead ≤ 0xdf then some [tail]
  else if lead = 0xe0 then some [(0xa0, 0xbf), tail]
  else if lead = 0xed then some [(0x80, 0x9f), tail]
  else if 0xe1 ≤ lead && lead ≤ 0xef then some [tail, tail]
  else if lead = 0xf0 then some [(0x90, 0xbf), tail, tail]
  else if lead = 0xf4 then some [(0x80, 0x8f), tail, tail]
  else if 0xf1 ≤ lead && lead ≤ 0xf3 then some [tail, tail, tail]
  else none

/-- What is wrong with the bytes after `read`, if they do not meet the bounds. -/
def brokenTail (read : List UInt8) : List (UInt8 × UInt8) → List UInt8 →
    Option (List UInt8 × Reason)
  | [], _ => none
  | _ :: _, [] => some (read, .unexpectedEnd)
  | (low, high) :: bounds, byte :: rest =>
    if low ≤ byte && byte ≤ high then brokenTail (read ++ [byte]) bounds rest
    else some (read, .invalidContinuation)

/-- The first ill-formed sequence of the bytes, the first of which stands at `position`. -/
def firstMalformed (position : Nat) : List UInt8 → Option Malformed
  | [] => none
  | lead :: rest =>
    match continuations lead with
    | none => some ⟨position, [lead], .invalidStart⟩
    | some bounds =>
      match brokenTail [lead] bounds rest with
      | some (read, reason) => some ⟨position, read, reason⟩
      | none => firstMalformed (position + bounds.length + 1) (rest.drop bounds.length)
termination_by bytes => bytes.length

/-- The text that the bytes write, or the first sequence that writes none. -/
def decode (bytes : ByteArray) : Except Malformed String :=
  if valid : bytes.IsValidUTF8 then
    .ok (String.fromUTF8 bytes valid)
  else
    .error ((firstMalformed 0 bytes.data.toList).getD ⟨bytes.size, [], .unexpectedEnd⟩)

/-- What a text is written as reads back as that text. -/
@[simp] theorem decode_toUTF8 (text : String) : decode text.toUTF8 = .ok text := by
  have valid : text.toUTF8.IsValidUTF8 := text.isValidUTF8
  simp only [decode, dif_pos valid]
  rfl

/-- Reading accepts exactly what writing produces. -/
theorem decode_eq_ok_iff {bytes : ByteArray} {text : String} :
    decode bytes = .ok text ↔ bytes = text.toUTF8 := by
  constructor
  · intro h
    unfold decode at h
    split at h
    · injection h with h
      subst h
      rfl
    · contradiction
  · rintro rfl
    exact decode_toUTF8 text

/-- The text of a refusal, with the offset of its first byte and, if there are more, of its last. -/
def Malformed.message (fault : Malformed) : String :=
  let reason := match fault.reason with
    | .invalidStart => "invalid start byte"
    | .invalidContinuation => "invalid continuation byte"
    | .unexpectedEnd => "unexpected end of data"
  let place := match fault.bytes with
    | [byte] => "byte 0x" ++ String.ofList (hexadecimal 2 byte.toNat) ++ " in position "
        ++ toString fault.position
    | bytes => "bytes in position " ++ toString fault.position ++ "-"
        ++ toString (fault.position + bytes.length - 1)
  "'utf-8' codec can't decode " ++ place ++ ": " ++ reason

end Bundler.Text.Utf8
