/-
  Reading bytes as UTF-8 text, with the position of the first
  fault.

  Key definitions include:
    * `Text.Utf8Error`
    * `Text.Utf8Error.message`
    * `Text.nextChar`
    * `Text.ofUtf8`
-/

namespace RegisterVM

namespace Text

/- A fault in UTF-8 text. -/
inductive Utf8Error where
  /- Bytes that start no character. -/
  | invalid (index length : Nat)
  /- A character cut off by the end of the text. -/
  | incomplete (index : Nat)
  deriving DecidableEq, Repr

/- The text of a UTF-8 fault. -/
def Utf8Error.message : Utf8Error → String
  | invalid index length =>
    s!"invalid utf-8 sequence of {length} bytes from index {index}"
  | incomplete index =>
    s!"incomplete utf-8 byte sequence from index {index}"

/- How a run of bytes begins. -/
inductive Utf8Head where
  /- A character, and the bytes after it. -/
  | char (c : Char) (length : Nat) (rest : List UInt8)
  /- A fault over some bytes. -/
  | invalid (length : Nat)
  /- The start of a character that the bytes do not finish. -/
  | incomplete
  deriving Repr

/- Whether a byte continues a character. -/
def isContinuation
    (b : UInt8) : Bool :=
  0x80 ≤ b && b ≤ 0xBF

/- The range of the second byte of a character, by the first. -/
def secondRange
    (b : UInt8) : UInt8 × UInt8 :=
  if b = 0xE0 then (0xA0, 0xBF)
  else if b = 0xED then (0x80, 0x9F)
  else if b = 0xF0 then (0x90, 0xBF)
  else if b = 0xF4 then (0x80, 0x8F)
  else (0x80, 0xBF)

/- The payload of a continuation byte. -/
def payload
    (b : UInt8) : Nat :=
  b.toNat % 64

/- Read the character at the front of some bytes. -/
def nextChar
    (b0 : UInt8)
    (rest : List UInt8) : Utf8Head :=
  if b0 < 0x80 then
    .char (Char.ofNat b0.toNat) 1 rest
  else if b0 < 0xC2 || 0xF4 < b0 then
    .invalid 1
  else
    match rest with
    | [] => .incomplete
    | b1 :: rest =>
      let (first, last) := secondRange b0
      if !(first ≤ b1 && b1 ≤ last) then
        .invalid 1
      else if b0 < 0xE0 then
        .char (Char.ofNat (b0.toNat % 32 * 64 + payload b1)) 2 rest
      else
        match rest with
        | [] => .incomplete
        | b2 :: rest =>
          if !isContinuation b2 then
            .invalid 2
          else if b0 < 0xF0 then
            .char
              (Char.ofNat
                (b0.toNat % 16 * 4096 + payload b1 * 64 + payload b2))
              3 rest
          else
            match rest with
            | [] => .incomplete
            | b3 :: rest =>
              if !isContinuation b3 then
                .invalid 3
              else
                .char
                  (Char.ofNat
                    (b0.toNat % 8 * 262144 + payload b1 * 4096
                      + payload b2 * 64 + payload b3))
                  4 rest

/-
  Read characters from a position on. The fuel bounds their
  number; every character takes at least one byte.
-/
def charsFrom : (fuel index : Nat) → List UInt8 →
    Except Utf8Error (List Char)
  | 0, _, _ => .ok []
  | _ + 1, _, [] => .ok []
  | fuel + 1, index, b :: rest =>
    match nextChar b rest with
    | .invalid length => .error (.invalid index length)
    | .incomplete => .error (.incomplete index)
    | .char c length rest =>
      (charsFrom fuel (index + length) rest).map (c :: ·)

/- Read bytes as text. -/
def ofUtf8
    (bytes : List UInt8) : Except Utf8Error (List Char) :=
  charsFrom bytes.length 0 bytes

end Text

end RegisterVM
