import PathSieve.Json.Grammar

/-!
# Reading JSON

A JSON text is read from left to right. Each reader takes one part off the front of a
text and gives what it stands for together with the rest, or nothing if the text does
not begin with such a part. `Json.parse?` reads a whole text: one value, with gaps
before and after it.

The readers do not look for the longest part by trying, they go on for as long as the text does.
So a number is read in full only if what stands behind it does not go on with digits,
which in a JSON text it never does.
-/

namespace PathSieve.Json

/-- Drop what stands in front without a meaning. -/
def skipGap (text : Text) : Text :=
  text.dropWhile isGap

/-- Read a string after its opening quote, up to the closing one. A control character may
    stand in it only as an escape, and a half of a pair only before the other half. -/
def readString : Text → Option (Text × Text)
  | '"' :: rest => some ([], rest)
  | '\\' :: 'u' :: a :: b :: c :: d :: rest => do
    let unit ← hexValue? [a, b, c, d]
    if isUpperHalf unit then
      match rest with
      | '\\' :: 'u' :: e :: f :: g :: h :: rest =>
        let lower ← hexValue? [e, f, g, h]
        if isLowerHalf lower then
          (readString rest).map (Prod.map (joinHalves unit lower :: ·) id)
        else none
      | _ => none
    else if isLowerHalf unit then none
    else (readString rest).map (Prod.map (Char.ofNat unit :: ·) id)
  | '\\' :: letter :: rest => do
    let character ← unescape? letter
    (readString rest).map (Prod.map (character :: ·) id)
  | character :: rest =>
    if character.toNat < 0x20 then none
    else (readString rest).map (Prod.map (character :: ·) id)
  | [] => none

/-- Read digits, of which there has to be one. -/
def readDigits (text : Text) : Option (Text × Text) :=
  if (text.takeWhile Char.isDigit).isEmpty then none
  else some (text.takeWhile Char.isDigit, text.dropWhile Char.isDigit)

/-- Read the whole part of a number, which ends behind a zero in front. -/
def readWhole : Text → Option (Text × Text)
  | '0' :: rest => some (['0'], rest)
  | text => readDigits text

/-- Read the digits behind a point, if there is a point. -/
def readFraction : Text → Option (Text × Text)
  | '.' :: rest => (readDigits rest).map (Prod.map ('.' :: ·) id)
  | text => some ([], text)

/-- Read the digits of a power of ten, which may have a sign. -/
def readPower : Text → Option (Text × Text)
  | sign :: rest =>
    if isSign sign then (readDigits rest).map (Prod.map (sign :: ·) id)
    else readDigits (sign :: rest)
  | [] => none

/-- Read a power of ten behind its mark, if there is a mark. -/
def readExponent : Text → Option (Text × Text)
  | mark :: rest =>
    if isExponentMark mark then (readPower rest).map (Prod.map (mark :: ·) id)
    else some ([], mark :: rest)
  | [] => some ([], [])

/-- Read a number without a sign. -/
def readMagnitude (text : Text) : Option (Text × Text) := do
  let (whole, rest) ← readWhole text
  let (fraction, rest) ← readFraction rest
  let (exponent, rest) ← readExponent rest
  some (whole ++ fraction ++ exponent, rest)

/-- Read a number. -/
def readNumber : Text → Option (Text × Text)
  | '-' :: rest => (readMagnitude rest).map (Prod.map ('-' :: ·) id)
  | text => readMagnitude text

/-- Read a value that a word stands for. -/
def readWord (text : Text) : Option (Json × Text) :=
  ((Text.after? "null".toList text).map (null, ·)).or
    (((Text.after? "true".toList text).map (boolean true, ·)).or
      ((Text.after? "false".toList text).map (boolean false, ·)))

section Series

variable {Entry : Type}

/-- Read a series of entries, of which there is one, with commas between them and a mark that
    closes it, in at most the given number of steps, each of which takes an entry. -/
def readSeries (readEntry : Text → Option (Entry × Text)) (close : Char) :
    (steps : Nat) → Text → Option (List Entry × Text)
  | 0, _ => none
  | steps + 1, text => do
    let (entry, rest) ← readEntry text
    match skipGap rest with
    | mark :: rest =>
      if mark = close then some ([entry], rest)
      else if mark = ',' then
        (readSeries readEntry close steps rest).map (Prod.map (entry :: ·) id)
      else none
    | [] => none

/-- Read a series of entries that may be empty. -/
def readEntries (readEntry : Text → Option (Entry × Text)) (close : Char) (steps : Nat)
    (text : Text) : Option (List Entry × Text) :=
  match skipGap text with
  | mark :: rest =>
    if mark = close then some ([], rest) else readSeries readEntry close steps text
  | [] => none

end Series

/-- Read a member of an object, given a way to read its value. -/
def readMember (readValue : Text → Option (Json × Text)) (text : Text) :
    Option ((Text × Json) × Text) := do
  let rest ← Text.after? ['"'] (skipGap text)
  let (name, rest) ← readString rest
  let rest ← Text.after? [':'] (skipGap rest)
  let (value, rest) ← readValue (skipGap rest)
  some ((name, value), rest)

/-- Read a value in which values are nested no deeper than the given number of steps. -/
def readValue : (steps : Nat) → Text → Option (Json × Text)
  | 0, _ => none
  | steps + 1, '\x7b' :: rest =>
    (readEntries (readMember (readValue steps)) '\x7d' steps rest).map (Prod.map object id)
  | steps + 1, '[' :: rest =>
    (readEntries (fun text => readValue steps (skipGap text)) ']' steps rest).map
      (Prod.map array id)
  | _ + 1, '"' :: rest => (readString rest).map (Prod.map string id)
  | _ + 1, text => (readWord text).or ((readNumber text).map (Prod.map number id))

/-- The value that a JSON text stands for. -/
def parse? (text : Text) : Option Json := do
  let (value, rest) ← readValue (text.length + 1) (skipGap text)
  if (skipGap rest).isEmpty then some value else none

end PathSieve.Json
