import Partitura.Fault

/-!
# UTF-8

Decoding bytes, with the place and the cause of the first error. A byte that cannot begin a
character, a byte that cannot continue one, and an end within a character are told apart.
-/

namespace Partitura.Text

/-- How many bytes follow a leading byte, the bits it gives, and the range of the next byte. -/
def lead? (b : Nat) : Option (Nat × Nat × Nat × Nat) :=
  if 0xc2 ≤ b ∧ b ≤ 0xdf then some (1, b - 0xc0, 0x80, 0xbf)
  else if b = 0xe0 then some (2, 0, 0xa0, 0xbf)
  else if b = 0xed then some (2, 0xd, 0x80, 0x9f)
  else if 0xe1 ≤ b ∧ b ≤ 0xef then some (2, b - 0xe0, 0x80, 0xbf)
  else if b = 0xf0 then some (3, 0, 0x90, 0xbf)
  else if b = 0xf4 then some (3, 4, 0x80, 0x8f)
  else if 0xf1 ≤ b ∧ b ≤ 0xf3 then some (3, b - 0xf0, 0x80, 0xbf)
  else none

/-- A character under way: the bits so far, the bytes read and still owed, and the range of the
next one. -/
structure Partial where
  first : Nat
  bits : Nat
  read : Nat
  owed : Nat
  low : Nat
  high : Nat

/-- The fault of a character that breaks off before a position. -/
def Partial.fault (p : Partial) (pos : Nat) (problem : String) : Fault :=
  .undecodable p.first (pos - p.read) (pos - 1) problem

/-- Decode bytes from a position on; `done` are the characters so far, newest first. The result
tells the character under way at the end. -/
def decodeFrom (pos : Nat) (now : Option Partial) (done : List Char) :
    List UInt8 → Except Fault (List Char × Option Partial)
  | [] => .ok (done.reverse, now)
  | b :: bs =>
    let n := b.toNat
    match now with
    | some p =>
      if p.low ≤ n ∧ n ≤ p.high then
        let bits := p.bits * 64 + (n - 0x80)
        if p.owed = 1 then decodeFrom (pos + 1) none (Char.ofNat bits :: done) bs
        else
          decodeFrom (pos + 1) (some ⟨p.first, bits, p.read + 1, p.owed - 1, 0x80, 0xbf⟩) done bs
      else .error (p.fault pos "invalid continuation byte")
    | none =>
      if n < 0x80 then decodeFrom (pos + 1) none (Char.ofNat n :: done) bs
      else
        match lead? n with
        | none => .error (.undecodable n pos pos "invalid start byte")
        | some (owed, bits, low, high) =>
          decodeFrom (pos + 1) (some ⟨n, bits, 1, owed, low, high⟩) done bs

def decodeUtf8 (bytes : List UInt8) : Except Fault (List Char) := do
  match ← decodeFrom 0 none [] bytes with
  | (cs, none) => return cs
  | (_, some p) => throw (p.fault bytes.length "unexpected end of data")

/-- Every line break as a line feed. -/
def unixLines : List Char → List Char
  | [] => []
  | '\r' :: '\n' :: cs => '\n' :: unixLines cs
  | '\r' :: cs => '\n' :: unixLines cs
  | c :: cs => c :: unixLines cs

/-! ## Reading in portions

A file may be read a portion of characters at a time. Its bytes are decoded in blocks, as many as
the portion takes, and positions count from the block, or from the character that goes on into
it. So where a file is no text, the portions before that place can be read nevertheless. -/

/-- How many characters are asked for at a time. -/
def portion : Nat := 4096

/-- How many bytes a block has at the least. -/
def blockSize : Nat := 8192

/-- The text of a file as far as it can be read. -/
structure Loaded where
  text : List Char
  /-- What keeps the rest from being read. -/
  fault : Option Fault := none

/-- The blocks of a file that are decoded so far. -/
structure Decoding where
  /-- The characters, newest first, with line feeds for line breaks. -/
  done : List Char := []
  count : Nat := 0
  now : Option Partial := none
  /-- Whether a carriage return waits for what follows it. -/
  waiting : Bool := false
  /-- The bytes and the characters of the last block. -/
  lastBytes : Nat := 0
  lastChars : Nat := 0

namespace Decoding

/-- The next block has as many bytes as the characters that are still asked for take, if they
are like those of the last one. -/
def nextSize (d : Decoding) : Nat :=
  max blockSize ((portion - d.count % portion) * d.lastBytes / d.lastChars)

/-- Take the characters of a block. -/
def take (size : Nat) (now : Option Partial) (cs : List Char) (d : Decoding) : Decoding :=
  let cs := if d.waiting then '\r' :: cs else cs
  let waiting := cs.getLast? == some '\r'
  let cs := unixLines (if waiting then cs.dropLast else cs)
  { done := cs.reverse ++ d.done, count := d.count + cs.length, now, waiting,
    lastBytes := size, lastChars := cs.length }

/-- What can be read if nothing more can be decoded: whole portions. -/
def cut (f : Fault) (d : Decoding) : Loaded where
  text := (d.done.drop (d.count % portion)).reverse
  fault := some f

/-- What can be read at the end. -/
def finish (d : Decoding) : Loaded :=
  match d.now with
  | some p => d.cut (p.fault p.read "unexpected end of data")
  | none => { text := (if d.waiting then '\n' :: d.done else d.done).reverse }

def run (d : Decoding) (bytes : List UInt8) : Loaded :=
  match bytes with
  | [] => d.finish
  | b :: bs =>
    let block := (b :: bs).take d.nextSize
    match decodeFrom (d.now.elim 0 (·.read)) d.now [] block with
    | .error f => d.cut f
    | .ok (cs, now) => (d.take block.length now cs).run ((b :: bs).drop d.nextSize)
termination_by bytes.length
decreasing_by
  have : 0 < d.nextSize := Nat.lt_of_lt_of_le (by decide) (Nat.le_max_left _ _)
  simp only [List.length_drop, List.length_cons]
  omega

end Decoding

def load (bytes : List UInt8) : Loaded := ({} : Decoding).run bytes

end Partitura.Text
