namespace PipeLang.Text

/-!
# Bytes and characters

Texts travel as UTF-8 bytes. Reading is either strict, and then fails on bytes
that are no UTF-8, or lenient, and then puts one replacement character for each
longest run of bytes that starts a character but does not complete one.
-/

/-- The bytes of a text. -/
def encode (text : String) : List UInt8 :=
  text.toUTF8.data.toList

/-- The text that the bytes encode, if they encode one. -/
def decode? (bytes : List UInt8) : Option String :=
  String.fromUTF8? ⟨bytes.toArray⟩

/-- Stands for bytes that encode no character. -/
def replacement : Char := '\ufffd'

/-- A character of which some bytes have been read. The next byte has to lie between
`lowest` and `highest`. -/
structure Unfinished where
  value : Nat
  missing : Nat
  lowest : UInt8
  highest : UInt8
deriving DecidableEq, Repr

/-- The characters that reading has completed, and the one it is in the middle of. -/
structure Progress where
  completed : List Char
  pending : Option Unfinished
deriving DecidableEq, Repr

/-- Reads a byte at the start of a character. The second byte is limited so that no
character is encoded in more bytes than it needs, and none is a surrogate or too large. -/
def firstByte (byte : UInt8) : Progress :=
  let lead (missing : Nat) (marker : UInt8) (lowest highest : UInt8) : Progress :=
    ⟨[], some ⟨(byte - marker).toNat, missing, lowest, highest⟩⟩
  if byte < 0x80 then ⟨[Char.ofNat byte.toNat], none⟩
  else if byte < 0xc2 then ⟨[replacement], none⟩
  else if byte < 0xe0 then lead 1 0xc0 0x80 0xbf
  else if byte = 0xe0 then lead 2 0xe0 0xa0 0xbf
  else if byte = 0xed then lead 2 0xe0 0x80 0x9f
  else if byte < 0xf0 then lead 2 0xe0 0x80 0xbf
  else if byte = 0xf0 then lead 3 0xf0 0x90 0xbf
  else if byte < 0xf4 then lead 3 0xf0 0x80 0xbf
  else if byte = 0xf4 then lead 3 0xf0 0x80 0x8f
  else ⟨[replacement], none⟩

/-- Reads a byte inside a character, or gives the character up and starts the next. -/
def Unfinished.nextByte (unfinished : Unfinished) (byte : UInt8) : Progress :=
  if unfinished.lowest ≤ byte ∧ byte ≤ unfinished.highest then
    let value := unfinished.value * 64 + (byte - 0x80).toNat
    if unfinished.missing ≤ 1 then ⟨[Char.ofNat value], none⟩
    else ⟨[], some ⟨value, unfinished.missing - 1, 0x80, 0xbf⟩⟩
  else
    let fresh := firstByte byte
    { fresh with completed := replacement :: fresh.completed }

def lenientFrom : Option Unfinished → List UInt8 → List Char
  | none, [] => []
  | some _, [] => [replacement]
  | unfinished, byte :: rest =>
      let progress := unfinished.elim (firstByte byte) (·.nextByte byte)
      progress.completed ++ lenientFrom progress.pending rest

/-- The text of the bytes, with replacements where they are no UTF-8. -/
def decodeLenient (bytes : List UInt8) : String :=
  String.ofList (lenientFrom none bytes)

def lineFeed : UInt8 := 0x0a

/-- Cuts bytes after each line feed; the last line may lack one. -/
def cutLines : List UInt8 → List (List UInt8)
  | [] => []
  | byte :: rest =>
      if byte = lineFeed then [byte] :: cutLines rest
      else
        match cutLines rest with
        | [] => [[byte]]
        | line :: others => (byte :: line) :: others

end PipeLang.Text
