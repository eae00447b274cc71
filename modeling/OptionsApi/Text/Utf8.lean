import OptionsApi.Text.Basic

/-! Texts as bytes in UTF-8. Decoding fails at the first byte that cannot go on a well-formed
sequence; overlong forms, surrogates and code points beyond the last one are not well-formed. A text
that was not decoded may hold unpaired surrogates, which have no encoding. No `Char` is a surrogate,
so it is a parameter which characters stand for them. -/

set_option autoImplicit false

namespace OptionsApi.Text

abbrev Bytes := List UInt8

def encodeUtf8 (text : Text) : Bytes := text.flatMap String.utf8EncodeChar

def byteLength (text : Text) : Nat := (encodeUtf8 text).length

/-- Characters in a row that have no encoding, and the offset of the first. -/
structure EncodeError where
  start : Nat
  characters : Text
  deriving DecidableEq, Repr

def EncodeError.message (error : EncodeError) : Text :=
  "'utf-8' codec can't encode " ++
    (match error.characters with
    | [c] => "character '\\u" ++ hexadecimal 4 c.toNat ++ "' in position " ++ ofNat error.start
    | characters => "characters in position " ++ ofNat error.start ++ "-" ++
        ofNat (error.start + characters.length - 1)) ++
    ": surrogates not allowed"

def encode (unencodable : List Char) (text : Text) : Except EncodeError Bytes :=
  match text.dropWhile fun c => !unencodable.contains c with
  | [] => .ok (encodeUtf8 text)
  | rest => .error ⟨text.length - rest.length, rest.takeWhile unencodable.contains⟩

inductive DecodeFault where
  | invalidStart
  | invalidContinuation
  | unexpectedEnd
  deriving DecidableEq, Repr

/-- A fault in the sequence that begins at an offset, with the bytes that could belong to it. -/
structure DecodeError where
  fault : DecodeFault
  start : Nat
  sequence : Bytes
  deriving DecidableEq, Repr

def DecodeFault.reason : DecodeFault → Text
  | .invalidStart => "invalid start byte"
  | .invalidContinuation => "invalid continuation byte"
  | .unexpectedEnd => "unexpected end of data"

def hexByte (byte : UInt8) : Text := hexadecimal 2 byte.toNat

def DecodeError.message (error : DecodeError) : Text :=
  "'utf-8' codec can't decode " ++
    (match error.sequence with
    | [byte] => "byte 0x" ++ hexByte byte ++ " in position " ++ ofNat error.start
    | bytes => "bytes in position " ++ ofNat error.start ++ "-" ++
        ofNat (error.start + bytes.length - 1)) ++
    ": " ++ error.fault.reason

/-- A sequence that is not complete: the bits read so far, how many bytes are missing, and between
which bounds the next one must lie. -/
structure Pending where
  bits : Nat
  missing : Nat
  low : Nat := 0x80
  high : Nat := 0xBF
  deriving DecidableEq, Repr

def Pending.ofLead? (byte : UInt8) : Option Pending :=
  let n := byte.toNat
  if 0xC2 ≤ n ∧ n ≤ 0xDF then some { bits := n - 0xC0, missing := 1 }
  else if n = 0xE0 then some { bits := 0, missing := 2, low := 0xA0 }
  else if n = 0xED then some { bits := 0xD, missing := 2, high := 0x9F }
  else if 0xE1 ≤ n ∧ n ≤ 0xEF then some { bits := n - 0xE0, missing := 2 }
  else if n = 0xF0 then some { bits := 0, missing := 3, low := 0x90 }
  else if 0xF1 ≤ n ∧ n ≤ 0xF3 then some { bits := n - 0xF0, missing := 3 }
  else if n = 0xF4 then some { bits := 4, missing := 3, high := 0x8F }
  else none

/-- Decodes from an offset. The bytes of a sequence that is not complete are held newest first. -/
def decodeFrom (offset : Nat) (pending : Option Pending) (held : Bytes) :
    Bytes → Except DecodeError Text
  | [] =>
    match pending with
    | none => .ok []
    | some _ => .error ⟨.unexpectedEnd, offset - held.length, held.reverse⟩
  | byte :: rest =>
    match pending with
    | none =>
      if byte.toNat < 0x80 then
        (decodeFrom (offset + 1) none [] rest).map (Char.ofNat byte.toNat :: ·)
      else
        match Pending.ofLead? byte with
        | some next => decodeFrom (offset + 1) (some next) [byte] rest
        | none => .error ⟨.invalidStart, offset, [byte]⟩
    | some state =>
      if state.low ≤ byte.toNat ∧ byte.toNat ≤ state.high then
        let bits := state.bits * 64 + byte.toNat % 64
        if state.missing ≤ 1 then
          (decodeFrom (offset + 1) none [] rest).map (Char.ofNat bits :: ·)
        else
          decodeFrom (offset + 1) (some { bits, missing := state.missing - 1 }) (byte :: held) rest
      else .error ⟨.invalidContinuation, offset - held.length, held.reverse⟩

def decodeUtf8 (bytes : Bytes) : Except DecodeError Text := decodeFrom 0 none [] bytes

/-- Every line end as a line feed: a carriage return, with or without a line feed, counts as one. -/
def unifyLineEnds : Text → Text
  | '\r' :: '\n' :: rest => '\n' :: unifyLineEnds rest
  | '\r' :: rest => '\n' :: unifyLineEnds rest
  | c :: rest => c :: unifyLineEnds rest
  | [] => []

end OptionsApi.Text
