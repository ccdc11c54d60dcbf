import Partitura.Text.Quoted
import Partitura.Number.Decimal

/-!
# Faults

Everything that can stop an operation, as causes. The wording of each stands in
`Fault.message` and nowhere else.
-/

namespace Partitura

inductive Fault
  -- numbers and their texts
  | numeralTooLong (digits : Nat)
  | numberTooLong
  | badNumeral (text : String)
  | badFraction (text : String)
  | zeroDenominator (numerator : Int)
  | nanFraction
  | infiniteFraction
  | quotientTooLarge
  | numberTooLarge
  | divisionByZero
  | realDivisionByZero
  | infiniteWhole
  | nanWhole
  | badDigits (base : Nat) (text : String)
  | badDecimal (text : String)
  -- characters and dates
  | codeTooLarge
  | codeOutOfRange
  | noCharacter
  | badStamp
  | badYear (year : Nat)
  | badMonth
  | badDay
  | badHour
  | badMinute
  | badSecond
  | badOffset (length : String)
  -- music
  | unknownAccidental (spelling : String)
  | unknownLetter (text : String)
  | negativeDuration (quarters : String)
  | badDenominator (value : String)
  | badNumerator (value : String)
  | tooManyDots (dots : String)
  | badSignature (text : String)
  | endsBeforeStart (start stop : String)
  | negativeLength (quarters : String)
  -- reading stored values
  | missingField (name : String)
  | badEventKind (value : String)
  | badModifierKind (value : String)
  | badSeverity (value : String)
  | badJson (problem : String) (line column offset : Nat)
  | nestedTooDeep (value : String)
  | invalid
  /-- A value of a kind that an operation cannot work on. -/
  | unsupported
  /-- A value of a kind that lacks an operation. -/
  | lacking
  -- sources and names that are no texts, by what they are instead
  | valueAsSource (kind : String)
  | collectionAsSource (kind : String)
  | valueAsName (kind : String)
  | collectionAsName (kind : String)
  -- places that do not exist
  | tokenOutOfRange
  | nothingToReport
  | undecodable (byte : Nat) (first last : Nat) (problem : String)
  | noSuchFile (path : String)
  | isFolder (path : String)
  | notAFolder (path : String)
  | nameTooLong (path : String)
  | badPath
  | noHome
  | noDocument (name : String)
  deriving DecidableEq, Repr

namespace Fault

open Number Text

/-- The fault about a value, or the one of writing the value. -/
def about (fault : String → Fault) : Except Fault String → Fault
  | .ok s => fault s
  | .error f => f

/-- What is said about a text that is no number in a base; a long text is cut. -/
def badDigitsText (base : Nat) (s : String) : String :=
  "invalid literal for int() with base " ++ decimal base ++ ": "
    ++ .ofList ((quoted s).toList.take 200)

def message : Fault → String
  | numeralTooLong n =>
    "Exceeds the limit (4300 digits) for integer string conversion: value has " ++ decimal n
      ++ " digits; use sys.set_int_max_str_digits() to increase the limit"
  | numberTooLong =>
    "Exceeds the limit (4300 digits) for integer string conversion; "
      ++ "use sys.set_int_max_str_digits() to increase the limit"
  | badFraction s => "Invalid literal for Fraction: " ++ quoted s
  | zeroDenominator n => "Fraction(" ++ decimal n ++ ", 0)"
  | nanFraction => "cannot convert NaN to integer ratio"
  | infiniteFraction => "cannot convert Infinity to integer ratio"
  | quotientTooLarge => "integer division result too large for a float"
  | numberTooLarge => "int too large to convert to float"
  | divisionByZero => "division by zero"
  | realDivisionByZero => "float division by zero"
  | infiniteWhole => "cannot convert float infinity to integer"
  | nanWhole => "cannot convert float NaN to integer"
  | badNumeral s => badDigitsText 10 s
  | badDigits base s => badDigitsText base s
  | badDecimal s => "could not convert string to float: " ++ quoted s
  | codeTooLarge => "Python int too large to convert to C int"
  | codeOutOfRange => "chr() arg not in range(0x110000)"
  | noCharacter => "string index out of range"
  | badStamp => "'NoneType' object has no attribute 'groupdict'"
  | badYear n => "year " ++ decimal n ++ " is out of range"
  | badMonth => "month must be in 1..12"
  | badDay => "day is out of range for month"
  | badHour => "hour must be in 0..23"
  | badMinute => "minute must be in 0..59"
  | badSecond => "second must be in 0..59"
  | badOffset s =>
    "offset must be a timedelta strictly between -timedelta(hours=24) and timedelta(hours=24), "
      ++ "not " ++ s ++ "."
  | unknownAccidental s => quoted s
  | unknownLetter s => "Unknown pitch class: " ++ s
  | negativeDuration q => "Duration must be non-negative, got " ++ q
  | badDenominator n => "Denominator must be positive, got " ++ n
  | badNumerator n => "Numerator must be positive, got " ++ n
  | tooManyDots n => "At most two dots supported, got " ++ n
  | badSignature s => "Invalid time signature format: " ++ s
  | endsBeforeStart start stop =>
    "tick_end " ++ stop ++ " precedes tick_start " ++ start
  | negativeLength q => "Duration must be >= 0, got " ++ q
  | missingField s => quoted s
  | badEventKind s => s ++ " is not a valid EventKind"
  | badModifierKind s => s ++ " is not a valid ModifierKind"
  | badSeverity s => s ++ " is not a valid DiagnosticSeverity"
  | badJson p line column offset =>
    p ++ ": line " ++ decimal line ++ " column " ++ decimal column
      ++ " (char " ++ decimal offset ++ ")"
  | nestedTooDeep value =>
    "maximum recursion depth exceeded while decoding a JSON " ++ value
      ++ " from a unicode string"
  | invalid => ""
  | unsupported => ""
  | lacking => ""
  | valueAsSource kind => "'" ++ kind ++ "' object is not iterable"
  | collectionAsSource kind => "expected string or bytes-like object, got '" ++ kind ++ "'"
  | valueAsName kind => "'" ++ kind ++ "' object has no attribute 'replace'"
  | collectionAsName kind => "unhashable type: '" ++ kind ++ "'"
  | tokenOutOfRange => "tuple index out of range"
  | nothingToReport => "list index out of range"
  | undecodable byte first last p =>
    if first = last then
      "'utf-8' codec can't decode byte 0x" ++ .ofList (hex 2 byte) ++ " in position "
        ++ decimal first ++ ": " ++ p
    else
      "'utf-8' codec can't decode bytes in position " ++ decimal first ++ "-" ++ decimal last
        ++ ": " ++ p
  | noSuchFile p => "[Errno 2] No such file or directory: " ++ quoted p
  | isFolder p => "[Errno 21] Is a directory: " ++ quoted p
  | notAFolder p => "[Errno 20] Not a directory: " ++ quoted p
  | nameTooLong p => "[Errno 36] File name too long: " ++ quoted p
  | badPath => "embedded null byte"
  | noHome => "Could not determine home directory."
  | noDocument s => "Document '" ++ s ++ "' not found."

end Fault

end Partitura
