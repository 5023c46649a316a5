import Mathlib.Data.Char
import MultAIplayer.Lib.LineStream
import Mathlib.Algebra.GroupWithZero.Nat
import Mathlib.Algebra.Ring.Nat

/-!
# Redaction of terminal output

What a process writes is read in parts, decoded part by part, and handed to
`TerminalStreamRedactor` (`terminal.rs`), which keeps the line that is not complete yet, drops lines
that grow too long, and drops the lines of a private key. The patterns of secrets inside a line are
a parameter, `redactKnownSecrets`.

## Decoding

`String::from_utf8_lossy` writes one replacement character for every longest start of a character
that is not completed. A character that straddles two reads is such a start in the first read.

## Keys

`keyAfter` says whether a line leaves a private key open: the last marker on it decides. The redactor
looks only at which markers a line has (`redactCompleteLine`), and at the complete lines alone.
-/

namespace MultAIplayer.Native

abbrev TerminalText := List Char

/-! ### Decoding -/

def isContinuation (byte : UInt8) : Bool := 0x80 ≤ byte && byte ≤ 0xbf

def replacementChar : Char := '\uFFFD'

/-- The number of continuation bytes behind a first byte, and the range of the first of them. -/
@[grind =] def utf8Tail (byte : UInt8) : Option (ℕ × UInt8 × UInt8) :=
  if 0xc2 ≤ byte && byte ≤ 0xdf then some (1, 0x80, 0xbf)
  else if byte = 0xe0 then some (2, 0xa0, 0xbf)
  else if byte = 0xed then some (2, 0x80, 0x9f)
  else if 0xe1 ≤ byte && byte ≤ 0xef then some (2, 0x80, 0xbf)
  else if byte = 0xf0 then some (3, 0x90, 0xbf)
  else if 0xf1 ≤ byte && byte ≤ 0xf3 then some (3, 0x80, 0xbf)
  else if byte = 0xf4 then some (3, 0x80, 0x8f)
  else none

/-- The bits of a first byte that belong to the character. -/
def leadingBits (byte : UInt8) (continuations : ℕ) : ℕ :=
  byte.toNat % 2 ^ (6 - continuations)

/-- The character that starts the bytes, or the replacement of what cannot be completed, and the
bytes behind it. -/
@[grind =] def nextChar (byte : UInt8) (rest : List UInt8) : Char × List UInt8 :=
  if byte < 0x80 then (Char.ofNat byte.toNat, rest)
  else
    match utf8Tail byte with
    | none => (replacementChar, rest)
    | some (continuations, low, high) =>
      match rest with
      | [] => (replacementChar, [])
      | first :: rest' =>
        if low ≤ first && first ≤ high then
          let more := (rest'.take (continuations - 1)).takeWhile isContinuation
          let behind := rest'.drop more.length
          if more.length = continuations - 1 then
            let code := (first :: more).foldl (fun code b ↦ code * 64 + b.toNat % 64)
              (leadingBits byte continuations)
            (Char.ofNat code, behind)
          else (replacementChar, behind)
        else (replacementChar, first :: rest')

/-- `nextChar` for as many bytes as there can be characters. -/
@[grind =] def decodeLossy : ℕ → List UInt8 → TerminalText
  | 0, _ => []
  | _, [] => []
  | n + 1, byte :: rest =>
    let next := nextChar byte rest
    next.1 :: decodeLossy n next.2

/-- `String::from_utf8_lossy`. -/
@[grind =] def fromUtf8Lossy (bytes : List UInt8) : TerminalText := decodeLossy bytes.length bytes

/-- The length of a text in bytes. -/
@[grind =] def textBytes (text : TerminalText) : ℕ := (text.map Char.utf8Size).sum

/-! ### The redactor -/

def maxTerminalRedactionPendingBytes : ℕ := 8 * 1024

def streamRedactionMarker : TerminalText := "[REDACTED BY MULTAIPLAYER]\n".toList

def beginMarker : TerminalText := "-----BEGIN ".toList

def endMarker : TerminalText := "-----END ".toList

def keyMarker : TerminalText := "PRIVATE KEY-----".toList

structure TerminalStreamRedactor where
  pending : TerminalText := []
  inPrivateKey : Bool := false
  suppressUntilNewline : Bool := false
  deriving DecidableEq

section Redactor

variable (redactKnownSecrets : TerminalText → TerminalText)

/-- Whether a key is open behind a line, and what is kept of the line. -/
@[grind =]
def redactCompleteLine (inPrivateKey : Bool) (line : TerminalText) : Bool × List TerminalText :=
  if inPrivateKey then
    if endMarker <:+: line ∧ keyMarker <:+: line then (false, []) else (true, [])
  else if beginMarker <:+: line ∧ keyMarker <:+: line then
    (decide ¬ endMarker <:+: line, [streamRedactionMarker])
  else (false, [redactKnownSecrets line])

def redactCompleteLines (inPrivateKey : Bool) : List TerminalText → Bool × List TerminalText
  | [] => (inPrivateKey, [])
  | line :: lines =>
    let first := redactCompleteLine redactKnownSecrets inPrivateKey line
    let more := redactCompleteLines first.1 lines
    (more.1, first.2 ++ more.2)

namespace TerminalStreamRedactor

/-- `push` behind the line that is suppressed. -/
@[grind =] def pushRemainder (r : TerminalStreamRedactor) (remainder : TerminalText) (eof : Bool) :
    TerminalStreamRedactor × List TerminalText :=
  let cut := LineStream.cut '\n' (r.pending ++ remainder)
  let redacted := redactCompleteLines redactKnownSecrets r.inPrivateKey cut.1
  let overflows := decide (maxTerminalRedactionPendingBytes < textBytes cut.2)
  let pending := if overflows then [] else cut.2
  let safe := if overflows then redacted.2 ++ [streamRedactionMarker] else redacted.2
  if eof then
    let last := if pending.isEmpty then []
      else (redactCompleteLine redactKnownSecrets redacted.1 pending).2
    ({}, safe ++ last)
  else
    ({ pending := pending
       inPrivateKey := redacted.1
       suppressUntilNewline := r.suppressUntilNewline || overflows }, safe)

@[grind =] def push (r : TerminalStreamRedactor) (chunk : TerminalText) (eof : Bool) :
    TerminalStreamRedactor × List TerminalText :=
  if r.suppressUntilNewline then
    match LineStream.behindLine '\n' chunk with
    | some remainder =>
      pushRemainder redactKnownSecrets { r with suppressUntilNewline := false } remainder eof
    | none => ({ r with suppressUntilNewline := !eof }, [])
  else pushRemainder redactKnownSecrets r chunk eof

end TerminalStreamRedactor

/-- What `capture_terminal_stream` keeps of the reads so far. -/
def captureReads (r : TerminalStreamRedactor) :
    List (List UInt8) → TerminalStreamRedactor × List TerminalText
  | [] => (r, [])
  | read :: reads =>
    let pushed := r.push redactKnownSecrets (fromUtf8Lossy read) false
    let more := captureReads pushed.1 reads
    (more.1, pushed.2 ++ more.2)

/-- What it has kept when the output ends. -/
def captureTerminalStream (reads : List (List UInt8)) :
    TerminalStreamRedactor × List TerminalText :=
  let captured := captureReads redactKnownSecrets {} reads
  let last := captured.1.push redactKnownSecrets [] true
  (last.1, captured.2 ++ last.2)

end Redactor

/-! ### What is to be kept -/

/-- The text of the reads, decoded read by read. -/
def decodedReads (reads : List (List UInt8)) : TerminalText := reads.flatMap fromUtf8Lossy

/-- The marker that stands last in a line: of a key that is opened, or one that is closed. -/
@[grind =] def lastMarkerOpens (key : Bool) : TerminalText → Bool
  | [] => key
  | c :: line =>
    let here := if beginMarker <+: c :: line then true
      else if endMarker <+: c :: line then false
      else key
    lastMarkerOpens here line

/-- Whether a private key is open behind a line. -/
@[grind =] def keyAfter (key : Bool) (line : TerminalText) : Bool :=
  if keyMarker <:+: line then lastMarkerOpens key line else key

def keyAfterLines (key : Bool) (lines : List TerminalText) : Bool := lines.foldl keyAfter key

/-- What is kept of lines is, in their order, markers and the redacted lines outside keys. -/
inductive KeysWithheld (redactKnownSecrets : TerminalText → TerminalText) :
    Bool → List TerminalText → List TerminalText → Prop
  | nil (key : Bool) : KeysWithheld redactKnownSecrets key [] []
  | dropped {key : Bool} {line : TerminalText} {lines kept : List TerminalText} :
    KeysWithheld redactKnownSecrets (keyAfter key line) lines kept →
    KeysWithheld redactKnownSecrets key (line :: lines) kept
  | marked {key : Bool} {line : TerminalText} {lines kept : List TerminalText} :
    KeysWithheld redactKnownSecrets (keyAfter key line) lines kept →
    KeysWithheld redactKnownSecrets key (line :: lines) (streamRedactionMarker :: kept)
  | redacted {line : TerminalText} {lines kept : List TerminalText} :
    ¬ (beginMarker <:+: line ∧ keyMarker <:+: line) →
    KeysWithheld redactKnownSecrets (keyAfter false line) lines kept →
    KeysWithheld redactKnownSecrets false (line :: lines) (redactKnownSecrets line :: kept)

end MultAIplayer.Native
