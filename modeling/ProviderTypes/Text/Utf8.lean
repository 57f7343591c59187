import ProviderTypes.Text.Quoted
/-!
# ProviderTypes.Text.Utf8

Text as UTF-8, from the bytes of a file and to them. A sequence that is no character is reported
with the bytes it spans and the reason: a byte that starts no sequence, a byte that continues
none, or the end of the data within a sequence.
-/

namespace ProviderTypes.Utf8

/-- Why bytes are not UTF-8. -/
inductive Reason where
  | invalidStart
  | invalidContinuation
  | unexpectedEnd
  deriving DecidableEq, Repr

def Reason.message : Reason → String
  | .invalidStart => "invalid start byte"
  | .invalidContinuation => "invalid continuation byte"
  | .unexpectedEnd => "unexpected end of data"

/-- The first sequence of bytes that is no character. -/
structure Fault where
  /-- The position of its first byte. -/
  start : Nat
  /-- Its first byte. -/
  byte : UInt8
  /-- How many bytes it spans. -/
  length : Nat
  reason : Reason
  deriving DecidableEq, Repr

/-- The report of a fault: the byte itself when it stands alone, else the positions. -/
def Fault.message (f : Fault) : String :=
  let place :=
    if f.length = 1 then
      "byte 0x" ++ String.ofList (hexDigits hexDigitLower 2 f.byte.toNat) ++
        " in position " ++ toString f.start
    else
      "bytes in position " ++ toString f.start ++ "-" ++ toString (f.start + f.length - 1)
  "'utf-8' codec can't decode " ++ place ++ ": " ++ f.reason.message

/-- How many continuation bytes a first byte asks for; none when it starts no sequence. -/
def continuations (b : UInt8) : Option Nat :=
  let n := b.toNat
  if n < 0x80 then some 0
  else if n < 0xC2 then none
  else if n < 0xE0 then some 1
  else if n < 0xF0 then some 2
  else if n < 0xF5 then some 3
  else none

/-- A byte that may continue a sequence. -/
def isContinuation (b : UInt8) : Bool := 0x80 ≤ b.toNat && b.toNat < 0xC0

/-- A second byte that the first byte allows: neither an overlong form, nor half of a
    surrogate pair, nor a code point beyond the last plane. -/
def isSecond (first b : UInt8) : Bool :=
  isContinuation b &&
    (if first = 0xE0 then 0xA0 ≤ b.toNat
     else if first = 0xED then b.toNat < 0xA0
     else if first = 0xF0 then 0x90 ≤ b.toNat
     else if first = 0xF4 then b.toNat < 0x90
     else true)

/-- The payload of a continuation byte. -/
def payload (b : UInt8) : Nat := b.toNat % 64

/-- Decode bytes of which the first stands at position `pos`. -/
def decodeFrom (pos : Nat) : List UInt8 → Except Fault (List Char)
  | [] => .ok []
  | b :: rest =>
    let fault (length : Nat) (reason : Reason) : Except Fault (List Char) :=
      .error ⟨pos, b, length, reason⟩
    match continuations b with
    | none => fault 1 .invalidStart
    | some 0 => (Char.ofNat b.toNat :: ·) <$> decodeFrom (pos + 1) rest
    | some 1 =>
      match rest with
      | [] => fault 1 .unexpectedEnd
      | b₁ :: rest₁ =>
        if isSecond b b₁ then
          (Char.ofNat (b.toNat % 32 * 64 + payload b₁) :: ·) <$> decodeFrom (pos + 2) rest₁
        else fault 1 .invalidContinuation
    | some 2 =>
      match rest with
      | [] => fault 1 .unexpectedEnd
      | b₁ :: rest₁ =>
        if isSecond b b₁ then
          match rest₁ with
          | [] => fault 2 .unexpectedEnd
          | b₂ :: rest₂ =>
            if isContinuation b₂ then
              (Char.ofNat (b.toNat % 16 * 4096 + payload b₁ * 64 + payload b₂) :: ·) <$>
                decodeFrom (pos + 3) rest₂
            else fault 2 .invalidContinuation
        else fault 1 .invalidContinuation
    | some _ =>
      match rest with
      | [] => fault 1 .unexpectedEnd
      | b₁ :: rest₁ =>
        if isSecond b b₁ then
          match rest₁ with
          | [] => fault 2 .unexpectedEnd
          | b₂ :: rest₂ =>
            if isContinuation b₂ then
              match rest₂ with
              | [] => fault 3 .unexpectedEnd
              | b₃ :: rest₃ =>
                if isContinuation b₃ then
                  (Char.ofNat (b.toNat % 8 * 262144 + payload b₁ * 4096 + payload b₂ * 64 +
                    payload b₃) :: ·) <$> decodeFrom (pos + 4) rest₃
                else fault 3 .invalidContinuation
            else fault 2 .invalidContinuation
        else fault 1 .invalidContinuation

/-- The text that bytes encode, or the first fault. -/
def decode (bytes : List UInt8) : Except Fault String :=
  String.ofList <$> decodeFrom 0 bytes

/-- The bytes of characters. -/
def encode (s : String) : List UInt8 := s.toUTF8.toList

def symbolSize : Symbol → Nat
  | .char c => c.utf8Size
  | .half _ => 3

def size (s : String) : Nat :=
  (Symbol.symbols s.toList).foldl (fun n x => n + symbolSize x) 0

/-- The bytes of a text. Half of a surrogate pair has none. -/
def encode? (s : String) : Option (List UInt8) :=
  if Symbol.hasHalf s then none else some (encode (Symbol.shown s))

end ProviderTypes.Utf8
